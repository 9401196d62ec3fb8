import Mathlib.Logic.Relation
import Vigil.Proofs.Stream.Flow

/-!
# Readers that take their time

A reader may let the others look before it asks for the next entry, or ask at once, as it likes each
time.  Once everybody has looked the difference is gone: whoever waited to send has sent, in the
order of the line, and the reader waits at an empty stream or was told the end.  So at rest the
stream and everybody on it are as they are with who collects.
-/

namespace Vigil.Stream

variable {ι ε : Type}

namespace Traffic

/-! ### How a reader goes on -/

section Pace

variable [BEq ι]

/-- The reader got an entry and has not asked for the next one. -/
def isHungry (c : ι) (t : Traffic ι ε) : Bool :=
  !t.isPending c &&
    match (t.repliesTo c).getLast? with
    | some (.received _) => true
    | _ => false

/-- What may happen next while there is a reader: somebody looks, or the reader asks for the next
entry, be it at once. -/
inductive Pace (c : ι) (t : Traffic ι ε) : Traffic ι ε → Prop
  | look (unsettled : t.ready ≠ []) : Pace c t (t.serveAt 0)
  | again (hungry : t.isHungry c = true) : Pace c t (t.start c .receive)
  | onward {rest : List (Party ι ε)} (ready : t.ready = ⟨c, .receive, false⟩ :: rest)
      (filled : t.stream.buffer ≠ []) :
      Pace c t { t.serveAt 0 with ready := ⟨c, .receive, false⟩ :: (t.serveAt 0).ready }

/-- Everybody has looked, and the reader waits or was told the end. -/
structure Resting (c : ι) (t : Traffic ι ε) : Prop where
  settled : t.ready = []
  content : t.isHungry c = false

/-- After every step, a reader goes on at its own pace until it comes to rest. -/
inductive Reads (c : ι) : Traffic ι ε → List (Step ι ε) → Traffic ι ε → Prop
  | nil (t : Traffic ι ε) : Reads c t [] t
  | cons {t u t' : Traffic ι ε} {s : Step ι ε} {steps : List (Step ι ε)}
      (paced : Relation.ReflTransGen (Pace c) (t.step s) u) (resting : Resting c u)
      (later : Reads c u steps t') : Reads c t (s :: steps) t'

end Pace

/-! ### What a reader was told -/

section Reading

variable [BEq ι] {c : ι} {t t' : Traffic ι ε} {party : Party ι ε} {rest : List (Party ι ε)}

/-- A reader is on the stream, or has to ask for the next entry, or was told the end. -/
inductive Reading (c : ι) (t : Traffic ι ε) : Prop
  | asks (own : (t.parties.filter fun party => party.id == c) = [⟨c, .receive, false⟩])
      (told : t.repliesTo c = t.taken.map .received)
  | pauses (gone : (t.parties.filter fun party => party.id == c) = [])
      (told : t.repliesTo c = t.taken.map .received) (took : t.taken ≠ [])
  | through (gone : (t.parties.filter fun party => party.id == c) = [])
      (told : t.repliesTo c = t.taken.map .received ++ [.ended]) (closed : t.stream.closed = true)
      (empty : t.stream.buffer = [])

theorem others_of_hungry (hhungry : t.isHungry c = true) :
    ∀ party ∈ t.parties, (party.id == c) = false := by
  simp only [isHungry, isPending, Bool.and_eq_true, Bool.not_eq_true', List.any_eq_false] at hhungry
  exact fun party hparty => by simpa using hhungry.1 party hparty

namespace Reading

theorem letAlone (h : Reading c t) (halone : LetAlone c t t') : Reading c t' := by
  obtain ⟨hparties, htold, htaken, hspent⟩ := halone
  cases h with
  | asks own told =>
      rw [own] at hparties
      exact .asks (List.perm_singleton.mp hparties) (by rw [htold, told, htaken])
  | pauses gone told took =>
      rw [gone] at hparties
      exact .pauses (List.perm_nil.mp hparties) (by rw [htold, told, htaken]) (htaken ▸ took)
  | through gone told closed empty =>
      rw [gone] at hparties
      obtain ⟨hclosed, hempty⟩ := hspent closed empty
      exact .through (List.perm_nil.mp hparties) (by rw [htold, told, htaken]) hclosed hempty

theorem eq_of_mem (h : Reading c t) (hparty : party ∈ t.parties) (hid : (party.id == c) = true) :
    party = ⟨c, .receive, false⟩ ∧ t.repliesTo c = t.taken.map .received := by
  have hmem : party ∈ t.parties.filter fun party => party.id == c :=
    List.mem_filter.mpr ⟨hparty, hid⟩
  cases h with
  | asks own told =>
      rw [own] at hmem
      exact ⟨List.mem_singleton.mp hmem, told⟩
  | pauses gone _ _ =>
      rw [gone] at hmem
      cases hmem
  | through gone _ _ _ =>
      rw [gone] at hmem
      cases hmem

/-- The reader looks. -/
theorem look_of_eq [LawfulBEq ι] (h : Reading c t) (hflow : Flow c t)
    (hready : t.ready = party :: rest) (hid : (party.id == c) = true) :
    Reading c (t.serveAt 0) := by
  obtain ⟨-, hothers, -⟩ := hflow.consumes_of_eq hready hid
  obtain ⟨rfl, htold⟩ := h.eq_of_mem (by simp [parties, hready]) hid
  have hgone {those : List (Party ι ε)} (hsub : those ⊆ t.waiting ++ rest) :
      (those.filter fun party => party.id == c) = [] :=
    List.filter_eq_nil_iff.mpr fun party hparty => by simp [hothers party (hsub hparty)]
  have hturn := turn hready
  generalize t.serveAt 0 = t' at hturn
  cases hturn with
  | withdrawn left => cases left
  | @met stream reply new gone _ outlook =>
      cases outlook with
      | @received entry tail buffer =>
          refine .pauses (hgone fun other hother => ?_) ?_ (by simp)
          · simpa [parties, or_comm] using hother
          · refine (repliesTo_of_finished (t := t) c rfl).trans ?_
            simp [htold]
  | turnedDown _ outlook =>
      cases outlook with
      | ended closed empty =>
          refine .through (hgone (by simp [parties, finish])) ?_ closed empty
          refine (repliesTo_of_finished (t := t) c rfl).trans ?_
          simp [htold, finish]
  | heldUp _ _ =>
      refine .asks ?_ htold
      have hwaiting := hgone (List.subset_append_left t.waiting rest)
      have hrest := hgone (List.subset_append_right t.waiting rest)
      simp [parties, enqueue, List.filter_append, hwaiting, hrest]
  | emptied _ outlook took => exact absurd (outlook.blocked_iterates rfl).1 took

theorem look [LawfulBEq ι] (h : Reading c t) (hflow : Flow c t) (hready : t.ready = party :: rest) :
    Reading c (t.serveAt 0) := by
  cases hid : party.id == c with
  | true => exact h.look_of_eq hflow hready hid
  | false =>
      have hask : party.ask.receives = false :=
        hflow.tame.asks party (by simp [parties, Traffic.without, hready, hid])
      exact h.letAlone (letAlone_serveAt (by simp [hready]) hid hask)

theorem told_of_hungry (h : Reading c t) (hhungry : t.isHungry c = true) :
    (t.parties.filter fun party => party.id == c) = [] ∧
      t.repliesTo c = t.taken.map .received := by
  have hgone := List.filter_eq_nil_iff.mpr fun party hparty =>
    (Bool.not_eq_true _).mpr (others_of_hungry hhungry party hparty)
  cases h with
  | asks own told => exact ⟨hgone, told⟩
  | pauses _ told _ => exact ⟨hgone, told⟩
  | through _ told _ _ => simp [isHungry, told] at hhungry

/-- A reader that pauses asks for the next entry. -/
theorem asks_of_hungry [LawfulBEq ι] (h : Reading c t) (hhungry : t.isHungry c = true)
    (hparties : t'.parties.Perm (⟨c, .receive, false⟩ :: t.parties))
    (hfinished : t'.finished = t.finished) (htaken : t'.taken = t.taken) : Reading c t' := by
  obtain ⟨hgone, htold⟩ := h.told_of_hungry hhungry
  have hown := hparties.filter fun party => party.id == c
  rw [List.filter_cons_of_pos (by simp), hgone] at hown
  exact .asks (List.perm_singleton.mp hown) (by rw [repliesTo, hfinished, htaken]; exact htold)

/-- At rest, the reader waits at an empty stream, or was told the end of a closed one. -/
theorem at_rest (h : Reading c t) (hwatchful : Watchful t) (hresting : Resting c t) :
    t.stream.buffer = [] ∧
      t.repliesTo c = t.taken.map .received ++ if t.stream.closed then [.ended] else [] := by
  cases h with
  | through _ told closed empty => exact ⟨empty, by rw [told, closed]; rfl⟩
  | asks own told =>
      have hmem : ⟨c, .receive, false⟩ ∈ t.parties.filter fun party => party.id == c := by
        rw [own]
        exact List.mem_singleton_self _
      have hparty := (List.mem_filter.mp hmem).1
      rw [parties, hresting.settled, List.append_nil] at hparty
      have hheld := hwatchful _ hparty
      exact ⟨hheld.empty rfl, by rw [told, hheld.unclosed]; simp⟩
  | pauses gone told took =>
      have hhungry : t.isHungry c = true := by
        obtain ⟨entry, hentry⟩ := Option.isSome_iff_exists.mp (List.getLast?_isSome.mpr took)
        have hgone : t.isPending c = false :=
          List.any_eq_false.mpr fun party hparty => List.filter_eq_nil_iff.mp gone party hparty
        simp [isHungry, hgone, told, hentry]
      cases hhungry.symm.trans hresting.content

end Reading

omit [BEq ι] in
/-- A reader on the stream that gets an entry. -/
theorem serveAt_of_receive {entry : ε} {tail : List ε}
    (hready : t.ready = ⟨c, .receive, false⟩ :: rest) (hbuffer : t.stream.buffer = entry :: tail) :
    t.serveAt 0 =
      { t with
        stream := { t.stream with buffer := tail }
        waiting := []
        ready := rest ++ t.waiting
        finished := t.finished ++ [(c, .received entry)]
        taken := t.taken ++ [entry] } := by
  simp [serveAt, hready, serve, Stream.look, hbuffer, wake, finish]

/-- The stream as it would be if everything were taken at once is the same whatever happens next. -/
structure Paced (c : ι) (t t' : Traffic ι ε) : Prop where
  flow : Flow c t'
  reading : Reading c t'
  absorb : (t'.without c).absorb = (t.without c).absorb

theorem Paced.trans {t'' : Traffic ι ε} (h : Paced c t t') (h' : Paced c t' t'') :
    Paced c t t'' :=
  ⟨h'.flow, h'.reading, h'.absorb.trans h.absorb⟩

variable [LawfulBEq ι]

theorem paced_onward (hflow : Flow c t) (hreading : Reading c t)
    (hready : t.ready = ⟨c, .receive, false⟩ :: rest) (hfilled : t.stream.buffer ≠ []) :
    Paced c t
      { t.serveAt 0 with ready := ⟨c, .receive, false⟩ :: (t.serveAt 0).ready } := by
  obtain ⟨entry, tail, hbuffer⟩ := List.exists_cons_of_ne_nil hfilled
  obtain ⟨hflow', habsorb⟩ := hflow.look hready
  have hreading' := hreading.look hflow hready
  obtain ⟨hconsumes, hothers, -⟩ := hflow.consumes_of_eq hready BEq.rfl
  have hserved := serveAt_of_receive hready hbuffer
  have hthose : ∀ party ∈ rest ++ t.waiting, (party.id == c) = false := fun party hparty =>
    hothers party (by simpa [or_comm] using hparty)
  have hhungry : (t.serveAt 0).isHungry c = true := by
    have hgone : (t.serveAt 0).isPending c = false := by
      rw [hserved]
      exact List.any_eq_false.mpr fun party hparty => by simp [hthose party hparty]
    have htold : (t.serveAt 0).repliesTo c = t.repliesTo c ++ [.received entry] := by
      rw [repliesTo_of_finished c (congrArg Traffic.finished hserved)]
      simp
    simp [isHungry, hgone, htold]
  have hsame (v : Traffic ι ε) :
      ({ v with ready := ⟨c, .receive, false⟩ :: v.ready } : Traffic ι ε).without c =
        v.without c := by
    simp [without]
  refine ⟨⟨hflow'.watchful, by rw [hsame]; exact hflow'.tame, ?_⟩, ?_, by rw [hsame, habsorb]⟩
  · -- all whom it woke are behind it now, and nobody waits
    rw [hserved]
    exact .inLine hconsumes rfl (by simpa using hthose) (.inr ⟨rfl, rfl⟩)
  · exact hreading'.asks_of_hungry hhungry List.perm_middle rfl rfl

theorem Pace.paced (h : Pace c t t') (hflow : Flow c t) (hreading : Reading c t) :
    Paced c t t' := by
  cases h with
  | look unsettled =>
      obtain ⟨party, rest, hready⟩ := List.exists_cons_of_ne_nil unsettled
      obtain ⟨hflow', habsorb⟩ := hflow.look hready
      exact ⟨hflow', hreading.look hflow hready, habsorb⟩
  | again hungry =>
      obtain ⟨hflow', hsame⟩ :
          Flow c (t.start c .receive) ∧ (t.start c .receive).without c = t.without c :=
        hflow.start (others_of_hungry hungry) rfl
      refine ⟨hflow', hreading.asks_of_hungry hungry ?_ rfl rfl, by rw [hsame]⟩
      rw [parties_start]
      exact List.perm_append_comm
  | onward ready filled => exact paced_onward hflow hreading ready filled

/-- However long a reader takes. -/
theorem paced_of_run (hrun : Relation.ReflTransGen (Pace c) t t') (hflow : Flow c t)
    (hreading : Reading c t) : Paced c t t' := by
  induction hrun with
  | refl => exact ⟨hflow, hreading, rfl⟩
  | tail _ hpace ih => exact ih.trans (hpace.paced ih.flow ih.reading)

/-! ### A reader comes to rest -/

/-- What the reader itself still has to do: to look, and before that to ask. -/
def effort (c : ι) (t : Traffic ι ε) : ℕ :=
  (t.ready.filter fun party => party.id == c).length + if t.isHungry c then 2 else 0

/-- What is used up until everybody is at rest: first what the others and the entries on the stream
give to do, then the effort of the reader. -/
def labour (c : ι) (t : Traffic ι ε) : (ℕ ×ₗ ℕ ×ₗ ℕ) ×ₗ ℕ := toLex ((t.without c).toil, t.effort c)

omit [LawfulBEq ι] in
theorem labour_lt_of_toil (h : (t'.without c).toil < (t.without c).toil) :
    t'.labour c < t.labour c :=
  Prod.Lex.toLex_lt_toLex.mpr (.inl h)

omit [LawfulBEq ι] in
theorem labour_lt_of_effort (hsame : t'.without c = t.without c) (h : t'.effort c < t.effort c) :
    t'.labour c < t.labour c :=
  Prod.Lex.toLex_lt_toLex.mpr (.inr ⟨by rw [hsame], h⟩)

theorem labour_look_lt_of_eq (hflow : Flow c t) (hreading : Reading c t)
    (hready : t.ready = party :: rest) (hid : (party.id == c) = true) :
    (t.serveAt 0).labour c < t.labour c := by
  obtain ⟨-, hothers, -⟩ := hflow.consumes_of_eq hready hid
  obtain ⟨rfl, htold⟩ := hreading.eq_of_mem (by simp [parties, hready]) hid
  have hbusy : 1 ≤ t.effort c := by simp [effort, hready]; omega
  have hrest : (rest.filter fun party => party.id == c) = [] :=
    List.filter_eq_nil_iff.mpr fun party hparty =>
      by simp [hothers party (List.mem_append_right _ hparty)]
  have hturn := turn hready
  generalize t.serveAt 0 = t' at hturn
  cases hturn with
  | withdrawn left => cases left
  | @met stream reply new gone _ outlook =>
      cases outlook with
      | @received entry tail buffer =>
          refine labour_lt_of_toil (toil_lt_of_buffer ?_ (by simp [buffer]))
          simp [length_parties, without, hready, Nat.add_comm]
  | turnedDown _ outlook =>
      cases outlook with
      | ended closed empty =>
          have hidle : (({ t with ready := rest } : Traffic ι ε).finish c .ended).effort c = 0 := by
            simp [effort, isHungry, hrest, finish, repliesTo]
          refine labour_lt_of_effort ?_ (by rw [hidle]; exact hbusy)
          simp [without, finish, hready]
  | heldUp _ _ =>
      have hidle :
          (({ t with ready := rest } : Traffic ι ε).enqueue ⟨c, .receive, false⟩).effort c = 0 := by
        simp [effort, isHungry, isPending, hrest, enqueue]
      refine labour_lt_of_effort ?_ (by rw [hidle]; exact hbusy)
      simp [without, enqueue, hready]
  | emptied _ outlook took => exact absurd (outlook.blocked_iterates rfl).1 took

/-- Every look uses something up, and so does asking. -/
theorem labour_look_lt (hflow : Flow c t) (hreading : Reading c t)
    (hready : t.ready = party :: rest) : (t.serveAt 0).labour c < t.labour c := by
  cases hid : party.id == c with
  | true => exact labour_look_lt_of_eq hflow hreading hready hid
  | false =>
      apply labour_lt_of_toil
      rw [without_serveAt_of_ne hready hid]
      exact toil_serveAt_lt _ (by simp [without, hready, hid])

theorem labour_again_lt (hhungry : t.isHungry c = true) :
    (t.start c .receive).labour c < t.labour c := by
  have hnobody : (t.ready.filter fun party => party.id == c) = [] :=
    List.filter_eq_nil_iff.mpr fun party hparty => by
      simp [others_of_hungry hhungry party (List.mem_append_right _ hparty)]
  have hbusy : t.effort c = 2 := by simp [effort, hhungry, hnobody]
  have hasks : (t.start c .receive).effort c = 1 := by
    simp [effort, start, isHungry, isPending, hnobody]
  exact labour_lt_of_effort (by simp [without, start]) (by rw [hbusy, hasks]; exact Nat.one_lt_two)

/-- A reader comes to rest. -/
theorem exists_resting (hflow : Flow c t) (hreading : Reading c t) :
    ∃ t', Relation.ReflTransGen (Pace c) t t' ∧ Resting c t' := by
  induction t using (InvImage.wf (labour c) wellFounded_lt).induction with
  | _ t ih =>
      have hnext {u : Traffic ι ε} (hpace : Pace c t u) (hless : u.labour c < t.labour c) :
          ∃ t', Relation.ReflTransGen (Pace c) t t' ∧ Resting c t' := by
        obtain ⟨t', hrun, hresting⟩ :=
          ih u hless (hpace.paced hflow hreading).flow (hpace.paced hflow hreading).reading
        exact ⟨t', .head hpace hrun, hresting⟩
      cases hready : t.ready with
      | cons party rest =>
          exact hnext (.look (by simp [hready])) (labour_look_lt hflow hreading hready)
      | nil =>
          cases hhungry : t.isHungry c with
          | true => exact hnext (.again hhungry) (labour_again_lt hhungry)
          | false => exact ⟨t, .refl, hready, hhungry⟩

end Reading

/-! ### Next to who collects -/

section Level

variable [BEq ι] [LawfulBEq ι] {c : ι} {t t' u : Traffic ι ε} {capacity : ℕ} {s : Step ι ε}

/-- A consumer that collects, with everything that is known of it. -/
structure Drawing (capacity : ℕ) (c : ι) (t : Traffic ι ε) : Prop where
  gathering : Gathering c true t
  conserved : Conserved capacity t
  flow : Flow c t

theorem Drawing.look (h : Drawing capacity c t) :
    Drawing capacity c (t.serveAt 0) ∧
      ((t.serveAt 0).without c).absorb = (t.without c).absorb := by
  cases hready : t.ready with
  | nil =>
      rw [serveAt_of_none (by simp [hready])]
      exact ⟨h, rfl⟩
  | cons party rest =>
      obtain ⟨hflow, habsorb⟩ := h.flow.look hready
      exact ⟨⟨h.gathering.serveAt 0, h.conserved.serveAt 0, hflow⟩, habsorb⟩

theorem Drawing.settle (h : Drawing capacity c t) :
    Drawing capacity c t.settle ∧ (t.settle.without c).absorb = (t.without c).absorb :=
  settle_keeps (motive := fun t' => Drawing capacity c t' ∧
      (t'.without c).absorb = (t.without c).absorb)
    (fun _ h' => ⟨h'.1.look.1, h'.1.look.2.trans h'.2⟩) ⟨h, rfl⟩

omit [LawfulBEq ι] in
theorem Flow.absorb_eq_self (h : Flow c t) (hready : t.ready = []) (hempty : t.stream.buffer = []) :
    (t.without c).absorb = t.without c :=
  absorb_of_nil (h.parties_eq_nil hready hempty) hempty

/-- At rest, nobody else can tell a reader from who collects. -/
structure Level (capacity : ℕ) (c : ι) (u t : Traffic ι ε) : Prop where
  drawing : Drawing capacity c u
  settled : u.ready = []
  flow : Flow c t
  reading : Reading c t
  resting : Resting c t
  same : t.without c = u.without c

namespace Level

/-- A reader takes its time. -/
theorem of_run (hdrawing : Drawing capacity c u) (hflow : Flow c t) (hreading : Reading c t)
    (habsorb : (t.without c).absorb = (u.without c).absorb)
    (hrun : Relation.ReflTransGen (Pace c) t t') (hresting : Resting c t') :
    Level capacity c u.settle t' := by
  obtain ⟨hdrawing', hsettled⟩ := hdrawing.settle
  have hpaced := paced_of_run hrun hflow hreading
  have hempty := (hpaced.reading.at_rest hpaced.flow.watchful hresting).1
  have hempty' := (hdrawing'.gathering.settled hdrawing'.conserved hdrawing'.flow.watchful
    (ready_settle u)).1
  refine ⟨hdrawing', ready_settle u, hpaced.flow, hpaced.reading, hresting, ?_⟩
  calc t'.without c
      = (t'.without c).absorb := (hpaced.flow.absorb_eq_self hresting.settled hempty).symm
    _ = (u.settle.without c).absorb := by rw [hpaced.absorb, habsorb, hsettled]
    _ = u.settle.without c := hdrawing'.flow.absorb_eq_self (ready_settle u) hempty'

omit [LawfulBEq ι] in
theorem empty (h : Level capacity c u t) : t.stream.buffer = [] ∧ u.stream.buffer = [] :=
  ⟨(h.reading.at_rest h.flow.watchful h.resting).1,
    (h.drawing.gathering.settled h.drawing.conserved h.drawing.flow.watchful h.settled).1⟩

/-- A producer does something. -/
theorem step (h : Level capacity c u t) (hs : s.produces c = true) :
    Drawing capacity c (u.step s) ∧ Flow c (t.step s) ∧ Reading c (t.step s) ∧
      ((t.step s).without c).absorb = ((u.step s).without c).absorb := by
  obtain ⟨hempty, hempty'⟩ := h.empty
  obtain ⟨hflow, hsame⟩ := h.flow.step h.resting.settled hempty hs
  obtain ⟨hflow', hsame'⟩ := h.drawing.flow.step h.settled hempty' hs
  have hreading : Reading c (t.step s) := by
    cases s with
    | serve position =>
        rw [Traffic.step, serveAt_of_none (by simp [h.resting.settled])]
        exact h.reading
    | _ => exact h.reading.letAlone (letAlone_step hs (by simp))
  refine ⟨⟨h.drawing.gathering.step hs, h.drawing.conserved.step s, hflow'⟩, hflow, hreading, ?_⟩
  rw [hsame, hsame', h.same]

theorem round (h : Level capacity c u t) (hs : s.produces c = true)
    (hrun : Relation.ReflTransGen (Pace c) (t.step s) t') (hresting : Resting c t') :
    Level capacity c (u.round s) t' := by
  obtain ⟨hdrawing, hflow, hreading, habsorb⟩ := h.step hs
  exact .of_run hdrawing hflow hreading habsorb hrun hresting

omit [LawfulBEq ι] in
/-- At rest, a reader was told what who collects has, and the end when the stream is closed. -/
theorem told (h : Level capacity c u t) :
    t.repliesTo c =
      u.accepted.map .received ++ if u.stream.closed then [.ended] else [] := by
  have htold := (h.reading.at_rest h.flow.watchful h.resting).2
  have htaken : t.taken = u.taken := by
    have hsame := congrArg Traffic.taken h.same
    exact hsame
  have hclosed : t.stream = u.stream := by
    have hsame := congrArg Traffic.stream h.same
    exact hsame
  obtain ⟨-, hall, -⟩ :=
    h.drawing.gathering.settled h.drawing.conserved h.drawing.flow.watchful h.settled
  rw [htold, htaken, hclosed, hall]

/-- A reader comes to rest after every step. -/
theorem exists_reads (h : Level capacity c u t) {steps : List (Step ι ε)}
    (hsteps : ∀ s ∈ steps, s.produces c = true) : ∃ t', Reads c t steps t' := by
  induction steps generalizing t u with
  | nil => exact ⟨t, .nil t⟩
  | cons s steps ih =>
      have hs := hsteps s List.mem_cons_self
      obtain ⟨-, hflow, hreading, -⟩ := h.step hs
      obtain ⟨v, hrun, hresting⟩ := exists_resting hflow hreading
      obtain ⟨t', hlater⟩ := ih (h.round hs hrun hresting)
        fun s' hs' => hsteps s' (List.mem_cons_of_mem _ hs')
      exact ⟨t', .cons hrun hresting hlater⟩

/-- By induction on the rounds: nobody can tell the two apart after any of them. -/
theorem of_reads {steps : List (Step ι ε)} (hreads : Reads c t steps t')
    (h : Level capacity c u t) (hsteps : ∀ s ∈ steps, s.produces c = true) :
    Level capacity c (u.rounds steps) t' := by
  induction hreads generalizing u with
  | nil t => exact h
  | cons hrun hresting _ ih =>
      exact ih (h.round (hsteps _ List.mem_cons_self) hrun hresting)
        fun s' hs' => hsteps s' (List.mem_cons_of_mem _ hs')

end Level

end Level

/-! ### The consumer comes -/

/-- Nobody who waits was withdrawn. -/
def Earnest (t : Traffic ι ε) : Prop := ∀ party ∈ t.waiting, party.withdrawn = false

namespace Earnest

variable {t : Traffic ι ε}

theorem wake (t : Traffic ι ε) : Earnest t.wake :=
  fun _ hparty => absurd hparty List.not_mem_nil

theorem enqueue (h : Earnest t) {party : Party ι ε} (hparty : party.withdrawn = false) :
    Earnest (t.enqueue party) := by
  intro other hother
  rcases List.mem_append.mp hother with hother | hother
  · exact h other hother
  · rwa [List.mem_singleton.mp hother]

theorem serve (h : Earnest t) (party : Party ι ε) : Earnest (t.serve party) := by
  rw [Traffic.serve]
  split_ifs with hwithdrawn
  · exact h
  · cases look t.stream party.ask with
    | met stream reply accepted taken => exact fun _ hother => absurd hother List.not_mem_nil
    | turnedDown reply => exact h
    | blocked stream ask taken =>
        simp only
        split_ifs
        · exact enqueue (fun other hother => h other hother) (by simpa using hwithdrawn)
        · exact enqueue (wake _) (by simpa using hwithdrawn)

theorem serveAt (h : Earnest t) (position : Nat) : Earnest (t.serveAt position) := by
  rw [Traffic.serveAt]
  split
  · exact h
  · rename_i party _
    exact serve (t := { t with ready := t.ready.eraseIdx position }) h party

variable [BEq ι]

theorem step (h : Earnest t) (s : Step ι ε) : Earnest (t.step s) := by
  cases s with
  | start id ask => exact h
  | serve position => exact h.serveAt position
  | withdraw id =>
      intro party hparty
      simp only [Traffic.step, withdraw, List.partition_eq_filter_filter] at hparty
      exact h party (List.mem_filter.mp hparty).1
  | close =>
      cases hclosed : t.stream.closed with
      | true => simpa only [Traffic.step, closeNow_of_closed hclosed] using h
      | false =>
          simp only [Traffic.step, closeNow_of_unclosed hclosed]
          exact wake _
  | sendFinal entry =>
      cases hclosed : t.stream.closed with
      | true => simpa only [Traffic.step, sendFinal_of_closed hclosed] using h
      | false =>
          simp only [Traffic.step, sendFinal_of_unclosed hclosed]
          exact wake _

end Earnest

section Arrival

variable [BEq ι] {c : ι} {t : Traffic ι ε} {capacity : ℕ}

/-- Producers on a stream to which no consumer has come yet. -/
structure Expecting (capacity : ℕ) (c : ι) (t : Traffic ι ε) : Prop where
  gathering : Gathering c false t
  conserved : Conserved capacity t
  watchful : Watchful t
  earnest : Earnest t

namespace Expecting

theorem onto (capacity : ℕ) :
    Expecting capacity c (onto ⟨capacity, [], false⟩ : Traffic ι ε) :=
  ⟨.onto _, ⟨rfl, rfl, by constructor <;> simp [Traffic.onto]⟩, nofun, nofun⟩

theorem others (h : Expecting capacity c t) : ∀ party ∈ t.parties, (party.id == c) = false := by
  cases h.gathering.own with
  | ahead absent _ _ =>
      exact fun party hparty => by simpa using List.filter_eq_nil_iff.mp absent party hparty

theorem flow (h : Expecting capacity c t) (hcapacity : 1 ≤ capacity) (hready : t.ready = []) :
    Flow c t := by
  have hmem : ∀ party ∈ (t.without c).parties, party ∈ t.waiting := by
    intro party hparty
    rw [parties_without, parties, hready, List.append_nil] at hparty
    exact (List.mem_filter.mp hparty).1
  have hasks : ∀ party ∈ (t.without c).parties, party.ask.receives = false := by
    intro party hparty
    have hold := List.mem_append_left t.ready (hmem party hparty)
    exact h.gathering.produced.asks party hold (h.others party hold)
  refine ⟨h.watchful, ⟨h.conserved.holds ▸ hcapacity, h.watchful.without, hasks, .inl ?_⟩,
    .absent h.others⟩
  intro party hparty
  have hheld : t.stream.HoldsUp party.ask := h.watchful party (hmem party hparty)
  exact ⟨hheld.sends (hasks party hparty), h.earnest party (hmem party hparty)⟩

variable [LawfulBEq ι]

theorem serveAt (h : Expecting capacity c t) (position : Nat) :
    Expecting capacity c (t.serveAt position) :=
  ⟨h.gathering.serveAt position, h.conserved.serveAt position, h.watchful.serveAt position,
    h.earnest.serveAt position⟩

theorem round (h : Expecting capacity c t) {s : Step ι ε} (hs : s.produces c = true) :
    Expecting capacity c (t.round s) :=
  settle_keeps (fun _ h' => h'.serveAt 0)
    ⟨h.gathering.step hs, h.conserved.step s, h.watchful.step s, h.earnest.step s⟩

theorem rounds (h : Expecting capacity c t) {steps : List (Step ι ε)}
    (hsteps : ∀ s ∈ steps, s.produces c = true) : Expecting capacity c (t.rounds steps) :=
  rounds_keeps (motive := Expecting capacity c) (fun _ s hs h' => h'.round (hsteps s hs)) h

theorem arrive_collect (h : Expecting capacity c t) (hflow : Flow c t) :
    Drawing capacity c (t.start c (.collect [])) ∧
      (t.start c (.collect [])).without c = t.without c := by
  obtain ⟨hflow', hsame⟩ :
      Flow c (t.start c (.collect [])) ∧ (t.start c (.collect [])).without c = t.without c :=
    hflow.start h.others rfl
  exact ⟨⟨h.gathering.arrive, h.conserved.step (.start c (.collect [])), hflow'⟩, hsame⟩

theorem arrive_receive (h : Expecting capacity c t) (hflow : Flow c t) :
    Flow c (t.start c .receive) ∧ Reading c (t.start c .receive) ∧
      (t.start c .receive).without c = t.without c := by
  obtain ⟨hflow', hsame⟩ :
      Flow c (t.start c .receive) ∧ (t.start c .receive).without c = t.without c :=
    hflow.start h.others rfl
  refine ⟨hflow', ?_, hsame⟩
  cases h.gathering.own with
  | ahead absent untold untouched =>
      have htaken : (t.start c .receive).taken = [] := untouched
      refine .asks (by simp [parties_start, List.filter_append, absent]) ?_
      rw [htaken]
      exact untold

end Expecting

/-- A reader that takes its time in the place of who collects: both come to the stream as it is, and
then the same rounds follow. -/
structure AtAnyPace (c : ι) (arrived : Traffic ι ε) (after : List (Step ι ε)) : Prop where
  comes_to_rest : ∃ reading, Reads c arrived (.start c .receive :: after) reading
  /-- Nobody else can tell which of them it is, once everybody has looked. -/
  others : ∀ reading, Reads c arrived (.start c .receive :: after) reading →
    reading.without c = (arrived.rounds (.start c (.collect []) :: after)).without c
  /-- The reader got everything one by one, and then the end if the stream is closed. -/
  entries : ∀ reading, Reads c arrived (.start c .receive :: after) reading →
    let collecting := arrived.rounds (.start c (.collect []) :: after)
    reading.repliesTo c =
      collecting.accepted.map .received ++ if collecting.stream.closed then [.ended] else []

theorem Expecting.atAnyPace [LawfulBEq ι] (h : Expecting capacity c t) (hcapacity : 1 ≤ capacity)
    (hready : t.ready = []) {after : List (Step ι ε)}
    (hafter : ∀ s ∈ after, s.produces c = true) : AtAnyPace c t after := by
  have hflow := h.flow hcapacity hready
  obtain ⟨hdrawing, hsame⟩ := h.arrive_collect hflow
  obtain ⟨hreader, hreading, hsame'⟩ := h.arrive_receive hflow
  have habsorb : ((t.start c .receive).without c).absorb =
      ((t.start c (.collect [])).without c).absorb := by rw [hsame, hsame']
  have hfirst {u : Traffic ι ε} (hrun : Relation.ReflTransGen (Pace c) (t.start c .receive) u)
      (hresting : Resting c u) : Level capacity c (t.start c (.collect [])).settle u :=
    .of_run hdrawing hreader hreading habsorb hrun hresting
  have hlevel {reading : Traffic ι ε} (hreads : Reads c t (.start c .receive :: after) reading) :
      Level capacity c (t.rounds (.start c (.collect []) :: after)) reading := by
    cases hreads with
    | cons hrun hresting hlater =>
        rw [rounds_cons]
        exact .of_reads hlater (hfirst hrun hresting) hafter
  refine ⟨?_, fun reading hreads => (hlevel hreads).same, fun reading hreads =>
    (hlevel hreads).told⟩
  obtain ⟨u, hrun, hresting⟩ := exists_resting hreader hreading
  obtain ⟨reading, hlater⟩ := (hfirst hrun hresting).exists_reads hafter
  exact ⟨reading, .cons hrun hresting hlater⟩

/-- Whether the consumer of a stream collects, keeps the newest entry, or reads on and on at any
pace, and whenever it comes, the producers fare the same and it gets the same entries. -/
theorem consumers_agree [LawfulBEq ι] {capacity : Int} {stream : Stream ε}
    (hstream : Stream.create capacity = .ok stream) {before after : List (Step ι ε)}
    (hbefore : ∀ s ∈ before, s.produces c = true) (hafter : ∀ s ∈ after, s.produces c = true) :
    (let arrived := (onto stream).stepAll before
     InStep c ((arrived.start c (.collect [])).stepAll after)
       ((arrived.start c (.last none)).stepAll after)
       ((arrived.start c .receive).readAll c after)) ∧
      AtAnyPace c ((onto stream).rounds before) after := by
  refine ⟨inStep_of_produces hstream hbefore hafter, ?_⟩
  obtain ⟨rfl, hcapacity⟩ := create_eq_ok hstream
  have hready : ((onto ⟨capacity.toNat, [], false⟩ : Traffic ι ε).rounds before).ready = [] :=
    rounds_keeps (motive := fun t => t.ready = []) (fun t s _ _ => ready_round t s) rfl
  have hexpecting := (Expecting.onto capacity.toNat).rounds hbefore
  exact hexpecting.atAnyPace (by omega) hready hafter

end Arrival

/-- Two senders wait behind a full buffer when the consumer comes; a last entry is put on the stream
although it is full again. -/
theorem consumers_agree_when_crowded :
    ∃ before after : List (Step Nat Nat),
      Stream.create 1 = .ok (⟨1, [], false⟩ : Stream Nat) ∧
      (∀ s ∈ before, s.produces 0 = true) ∧ (∀ s ∈ after, s.produces 0 = true) ∧
      let arrived := (onto ⟨1, [], false⟩ : Traffic Nat Nat).stepAll before
      ((arrived.start 0 .receive).readAll 0 after).finished =
        [(1, .sent), (0, .received 10), (2, .sent), (0, .received 20), (3, .sent),
          (0, .received 30), (0, .received 40), (0, .ended)] ∧
      InStep 0 ((arrived.start 0 (.collect [])).stepAll after)
        ((arrived.start 0 (.last none)).stepAll after)
        ((arrived.start 0 .receive).readAll 0 after) ∧
      AtAnyPace 0 ((onto ⟨1, [], false⟩ : Traffic Nat Nat).rounds before) after := by
  let before : List (Step Nat Nat) := [.start 1 (.send 10), .serve 0, .start 2 (.send 20), .serve 0,
    .start 3 (.send 30), .serve 0]
  let after : List (Step Nat Nat) := [.serve 0, .serve 0, .serve 0, .serve 0, .serve 0,
    .sendFinal 40, .serve 0]
  have hstream : Stream.create 1 = .ok (⟨1, [], false⟩ : Stream Nat) := rfl
  have hbefore : ∀ s ∈ before, s.produces 0 = true := by decide
  have hafter : ∀ s ∈ after, s.produces 0 = true := by decide
  exact ⟨before, after, hstream, hbefore, hafter, by cbv, consumers_agree hstream hbefore hafter⟩

end Traffic

end Vigil.Stream
