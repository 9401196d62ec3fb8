import Vigil.Proofs.Clock.Order
import Vigil.Proofs.Watch.Upkeep

/-!
# Signals are heeded

A run looks whether it has to end before each query, and nothing can happen between the look and the
query.  Once it has to end it has to for good: signals are not taken back, and a deadline that was
reached stays reached.  So no query begins from the moment at which a watch has to end, wherever the
run was held up when that moment came.
-/

namespace Vigil.Watch

open Log (Note)

variable {τ ω : Type}

def Reaction.signals : Reaction → List Trigger
  | .trigger t => [t]
  | _ => []

/-- The signals that are given in the course of a deed. -/
def Deed.signals (plan : Plan τ ω) : Deed τ ω → List Trigger
  | .answered number _ => (plan.services number).triggers
  | .hookCalled snapshot =>
      match plan.hook with
      | some hook => (hook snapshot).signals
      | none => []
  | _ => []

def Deed.isQuery : Deed τ ω → Bool
  | .query _ => true
  | _ => false

namespace World

/-- Somebody asked for the end of the watch. -/
def Signalled (w : World τ ω) : Prop := w.cancellation.requested = true ∨ w.stopped = true

/-- The watch has to end: somebody asked for it, or its deadline was reached. -/
def MustEnd [Clock τ] (w : World τ ω) : Prop :=
  w.Signalled ∨ ∃ due ∈ w.cancellation.deadline, Clock.reached w.now due = true

instance (w : World τ ω) : Decidable w.Signalled := inferInstanceAs (Decidable (_ ∨ _))

instance [Clock τ] (w : World τ ω) : Decidable w.MustEnd :=
  inferInstanceAs (Decidable (_ ∨ ∃ due ∈ _, _))

theorem abort?_eq_none [Clock τ] {plan : Plan τ ω} {w : World τ ω} :
    w.abort? plan = none ↔ ¬w.MustEnd := by
  rw [abort?, MustEnd, Signalled, Cancellation.hasFired, Cancellation.deadlineExceeded]
  cases hdeadline : w.cancellation.deadline <;> cases hrequested : w.cancellation.requested <;>
    cases hstopped : w.stopped <;> simp
  split_ifs <;> simp

/-- A watch that has to end has to later on. -/
theorem MustEnd.later [Clock τ] [OrderedClock τ] {w : World τ ω} {goal : τ} (h : w.MustEnd)
    (hlater : Clock.lt w.now goal = true) : World.MustEnd { w with now := goal } :=
  h.imp id fun ⟨due, hdue, hreached⟩ => ⟨due, hdue, OrderedClock.reached_of_lt hreached hlater⟩

theorem signalled_trigger (w : World τ ω) (t : Trigger) : (w.trigger t).Signalled := by
  cases t with
  | cancel => exact .inl rfl
  | stop => exact .inr rfl

/-! ### What a run adds to its journal -/

/-- One state leads to another at the same moment without a query: signals may be given, and deeds
are written down. -/
structure Advance (plan : Plan τ ω) (w w' : World τ ω) : Prop where
  now : w'.now = w.now
  deadline : w'.cancellation.deadline = w.cancellation.deadline
  signalled : w.Signalled → w'.Signalled
  journal : ∃ entries, w'.journal = w.journal ++ entries ∧
    ∀ entry ∈ entries, entry.2.isQuery = false ∧ (entry.2.signals plan ≠ [] → w'.Signalled)

namespace Advance

variable {plan : Plan τ ω} {w w₁ w₂ w' : World τ ω}

theorem trans (h : Advance plan w w₁) (h' : Advance plan w₁ w₂) : Advance plan w w₂ where
  now := h'.now.trans h.now
  deadline := h'.deadline.trans h.deadline
  signalled hsignalled := h'.signalled (h.signalled hsignalled)
  journal := by
    obtain ⟨entries, hjournal, hentries⟩ := h.journal
    obtain ⟨entries', hjournal', hentries'⟩ := h'.journal
    refine ⟨entries ++ entries', by rw [hjournal', hjournal, List.append_assoc], ?_⟩
    intro entry hentry
    rcases List.mem_append.mp hentry with hentry | hentry
    · exact ⟨(hentries entry hentry).1, fun hgiven =>
        h'.signalled ((hentries entry hentry).2 hgiven)⟩
    · exact hentries' entry hentry

/-- Nothing that matters here changes. -/
theorem of_eq (hnow : w'.now = w.now) (hcancellation : w'.cancellation = w.cancellation)
    (hstopped : w'.stopped = w.stopped) (hjournal : w'.journal = w.journal) :
    Advance plan w w' where
  now := hnow
  deadline := by rw [hcancellation]
  signalled := by
    rw [Signalled, Signalled, hcancellation, hstopped]
    exact id
  journal := ⟨[], by rw [hjournal, List.append_nil], fun _ hentry => absurd hentry List.not_mem_nil⟩

theorem refl (w : World τ ω) : Advance plan w w := of_eq rfl rfl rfl rfl

/-- A deed is written down after the signals that are given in its course. -/
theorem record (w : World τ ω) {deed : Deed τ ω} (hquery : deed.isQuery = false)
    (hsignals : deed.signals plan ≠ [] → w.Signalled) : Advance plan w (w.record deed) where
  now := rfl
  deadline := rfl
  signalled := id
  journal := ⟨[(w.now, deed)], rfl, by simpa using ⟨hquery, hsignals⟩⟩

theorem trigger (plan : Plan τ ω) (w : World τ ω) (t : Trigger) :
    Advance plan w (w.trigger t) where
  now := by cases t <;> rfl
  deadline := by cases t <;> rfl
  signalled _ := w.signalled_trigger t
  journal :=
    ⟨[], by cases t <;> simp [World.trigger], fun _ hentry => absurd hentry List.not_mem_nil⟩

theorem triggers (plan : Plan τ ω) (w : World τ ω) (triggers : List Trigger) :
    Advance plan w (triggers.foldl World.trigger w) ∧
      (triggers ≠ [] → (triggers.foldl World.trigger w).Signalled) := by
  induction triggers generalizing w with
  | nil => exact ⟨refl w, fun hnone => absurd rfl hnone⟩
  | cons t triggers ih =>
      obtain ⟨hrest, _⟩ := ih (w.trigger t)
      exact ⟨(trigger plan w t).trans hrest, fun _ => hrest.signalled (w.signalled_trigger t)⟩

theorem note (w : World τ ω) (n : Note) : Advance plan w (w.note n) :=
  record w rfl fun hnone => absurd rfl hnone

theorem noteAll (w : World τ ω) (notes : List Note) : Advance plan w (w.noteAll notes) := by
  induction notes generalizing w with
  | nil => exact refl w
  | cons n notes ih => exact (note w n).trans (ih (w.note n))

theorem finish (w : World τ ω) (how : Ending) : Advance plan w (w.finish how) :=
  (record w rfl fun hnone => absurd rfl hnone).trans (of_eq rfl rfl rfl rfl)

theorem shut (w : World τ ω) : Advance plan w w.shut := by
  rw [World.shut]
  split <;> exact of_eq rfl rfl rfl rfl

theorem shutWith (w : World τ ω) (event : Event τ) : Advance plan w (w.shutWith event) := by
  rw [World.shutWith]
  split <;> exact of_eq rfl rfl rfl rfl

theorem breakDown (w : World τ ω) (how : Ending) : Advance plan w (w.breakDown how) :=
  (shut w).trans (finish _ how)

theorem withFarewell (w : World τ ω) : Advance plan w (w.withFarewell plan) :=
  (note w _).trans ((shutWith _ _).trans (finish _ .cancelled))

theorem closeClient (plan : Plan τ ω) (w : World τ ω) : Advance plan w (w.closeClient plan) := by
  rw [World.closeClient]
  split_ifs <;> exact of_eq rfl rfl rfl rfl

theorem send (w : World τ ω) (event : Event τ) : Advance plan w (w.send event) :=
  of_eq rfl rfl rfl rfl

/-- The signals of a service are given before its answer is written down. -/
theorem withAnswer (w : World τ ω) (number : Nat) :
    Advance plan w (w.withAnswer plan number) := by
  obtain ⟨htriggers, hgiven⟩ := triggers plan w (plan.services number).triggers
  have hclosed := closeClient plan ((plan.services number).triggers.foldl World.trigger w)
  refine htriggers.trans (hclosed.trans (record _ rfl fun hsignals => ?_))
  exact hclosed.signalled (hgiven hsignals)

/-- The signal of a hook is given while the call stands in the journal; no query comes between. -/
theorem callHook (w : World τ ω) (snapshot : Snapshot τ) :
    Advance plan w (w.callHook plan snapshot) := by
  rw [World.callHook]
  cases hhook : plan.hook with
  | none => exact refl w
  | some hook =>
      simp only
      cases hreaction : hook snapshot with
      | record =>
          have hsilent : Deed.signals plan (.hookCalled snapshot) = [] := by
            simp [Deed.signals, Reaction.signals, hhook, hreaction]
          exact record w rfl fun hgiven => absurd hsilent hgiven
      | fail f =>
          have hsilent : Deed.signals plan (.hookCalled snapshot) = [] := by
            simp [Deed.signals, Reaction.signals, hhook, hreaction]
          exact record w rfl fun hgiven => absurd hsilent hgiven
      | trigger t =>
          have hgiven := signalled_trigger (w.record (.hookCalled snapshot)) t
          have hstill := trigger plan (w.record (.hookCalled snapshot)) t
          refine ⟨hstill.now, hstill.deadline, fun _ => hgiven, ?_⟩
          refine ⟨[(w.now, .hookCalled snapshot)], by cases t <;> rfl, ?_⟩
          simpa using ⟨rfl, fun _ => hgiven⟩

theorem withHook (w : World τ ω) (snapshot : Snapshot τ) :
    Advance plan w (w.withHook plan snapshot) :=
  (callHook w snapshot).trans (noteAll _ _)

theorem withBegin (w : World τ ω) : Advance plan w w.withBegin := by
  have hstart : Advance plan w { w with run := { w.run with started := w.now } } :=
    .of_eq rfl rfl rfl rfl
  exact hstart.trans (record _ rfl fun hnone => absurd rfl hnone)

/-- Wherever the watch has to end, it has to at the later state. -/
theorem mustEnd [Clock τ] (h : Advance plan w w') (hmust : w.MustEnd) : w'.MustEnd := by
  rcases hmust with hsignalled | hreached
  · exact .inl (h.signalled hsignalled)
  · rw [MustEnd, h.now, h.deadline]
    exact .inr hreached

theorem queryTimes (h : Advance plan w w') : w'.queryTimes = w.queryTimes := by
  obtain ⟨entries, hjournal, hentries⟩ := h.journal
  rw [World.queryTimes, hjournal, List.filterMap_append, World.queryTimes,
    List.append_right_eq_self, List.filterMap_eq_nil_iff]
  intro entry hentry
  have hquery := (hentries entry hentry).1
  obtain ⟨instant, deed⟩ := entry
  cases deed with
  | query number => cases hquery
  | _ => rfl

end Advance

variable [Clock τ] [Wait ω] [Spans ω τ] {plan : Plan τ ω}

omit [Spans ω τ] in
theorem Choke.advance {w w' : World τ ω} {p : Point ω} {d : Defect}
    (h : Choke plan w p w' d) : Advance plan w w' := by
  cases h with
  | complaint _ _ _ _ => exact .callHook w _
  | grace _ _ _ _ _ => exact .withHook w _
  | interrupt _ _ _ => exact .closeClient plan w
  | _ => exact .refl w

/-- Each move but one begins no query, and that one is made only while the watch need not end. -/
theorem Move.advance {w w' : World τ ω} {p p' : Point ω} (h : Move plan w p p' w') :
    Advance plan w w' ∨ ¬w.MustEnd ∧ w' = w.withQuery plan := by
  cases h with
  | ask noReason => exact .inr ⟨abort?_eq_none.mp noReason, rfl⟩
  | skip phase killed => exact .inl ((Advance.shutWith w _).trans (.finish _ _))
  | start phase alive opening dated => exact .inl ((Advance.withBegin w).trans (.note _ _))
  | mute phase alive cause => exact .inl ((Advance.withBegin w).trans (.finish _ _))
  | choke cause => exact .inl (cause.advance.trans (.breakDown _ _))
  | abort reason dated => exact .inl ((Advance.note w _).trans (.send _ _))
  | wait duration => exact .inl (.of_eq rfl rfl rfl rfl)
  | atOnce duration => exact .inl (.refl w)
  | inTime phase alive reached => exact .inl (.refl w)
  | interrupt phase killed dated =>
      exact .inl ((Advance.closeClient plan w).trans (.withFarewell _))
  | answer => exact .inl (.withAnswer w _)
  | revoke dated => exact .inl (.withFarewell w)
  | fail outcome dated => exact .inl ((Advance.noteAll w _).trans (.breakDown _ _))
  | publish outcome dated => exact .inl ((Advance.noteAll w _).trans (.send _ _))
  | finish phase reply terminal => exact .inl (.breakDown w _)
  | grace phase reply first sleeping dated =>
      have hmarked (w₁ : World τ ω) :
          Advance plan w₁ { w₁ with run := { w₁.run with graceDue := false } } :=
        .of_eq rfl rfl rfl rfl
      exact .inl ((Advance.withHook w _).trans ((Advance.note _ _).trans (hmarked _)))
  | progress phase reply later dated => exact .inl (.withHook w _)
  | retry phase reply terminal noSnapshot => exact .inl (.refl w)
  | refuse phase reply => exact .inl (.breakDown w _)
  | retract phase answered unsent undenied dated => exact .inl (.withFarewell w)
  | @sleep delay _ positive length =>
      have hpaused : Advance plan w (w.record (.paused delay)) :=
        .record w rfl fun hnone => absurd rfl hnone
      exact .inl (hpaused.trans (.of_eq rfl rfl rfl rfl))
  | @overrun delay positive length =>
      have hpaused : Advance plan w (w.record (.paused delay)) :=
        .record w rfl fun hnone => absurd rfl hnone
      exact .inl (hpaused.trans (.of_eq rfl rfl rfl rfl))
  | hurry positive => exact .inl (.record w rfl fun hnone => absurd rfl hnone)
  | wake phase reason => exact .inl (.of_eq rfl rfl rfl rfl)
  | leave phase tidy killed dated => exact .inl (.withFarewell w)
  | collapse phase tidy alive => exact .inl (.breakDown w _)
  | rise phase tidy alive => exact .inl (.refl w)

/-- The deadline of a watch never changes. -/
theorem deadline_invariant (deadline : Option τ) :
    Invariant plan (fun _ => True) fun _ w => w.cancellation.deadline = deadline where
  moves := by
    rintro w p p' w' hmove rfl
    rcases hmove.advance with hadvance | ⟨_, rfl⟩
    · exact hadvance.deadline
    · simp only [World.withQuery, openClient]
      split_ifs <;> rfl
  helper _ _ before := before
  serve _ before := before
  passTime _ _ _ before := before
  trigger {w t} before := by cases t <;> exact before
  kill _ before := by
    rw [World.kill]
    split <;> exact before
  ask _ before := before
  withdraw _ before := before

/-! ### No query follows -/

/-- No query was begun after a signal, or when the deadline was reached; and the signals that were
given have not been forgotten. -/
structure Heedful (plan : Plan τ ω) (w : World τ ω) : Prop where
  signalled : ∀ entry ∈ w.journal, entry.2.signals plan ≠ [] → w.Signalled
  queries : ∀ earlier instant number later,
    w.journal = earlier ++ (instant, .query number) :: later →
      (∀ due ∈ w.cancellation.deadline, Clock.reached instant due = false) ∧
        ∀ entry ∈ earlier, entry.2.signals plan = []

namespace Heedful

variable {w w' : World τ ω}

omit [Wait ω] [Spans ω τ] in
theorem advance (h : Heedful plan w) (hadvance : Advance plan w w') : Heedful plan w' := by
  obtain ⟨entries, hjournal, hentries⟩ := hadvance.journal
  constructor
  · intro entry hentry hgiven
    rw [hjournal, List.mem_append] at hentry
    rcases hentry with hentry | hentry
    · exact hadvance.signalled (h.signalled entry hentry hgiven)
    · exact (hentries entry hentry).2 hgiven
  · intro earlier instant number later hsplit
    have hnot : (instant, Deed.query number) ∉ entries := fun hentry => by
      have hquery := (hentries _ hentry).1
      cases hquery
    rw [hjournal, List.append_eq_append_iff] at hsplit
    rw [hadvance.deadline]
    -- what was added holds no query, so the query stands in the old part
    rcases hsplit with ⟨middle, rfl, hnew⟩ | ⟨middle, hold, hnew⟩
    · exact absurd (by simp [hnew]) hnot
    · cases middle with
      | nil => exact absurd (by rw [← List.nil_append entries, ← hnew]; simp) hnot
      | cons entry middle =>
          obtain ⟨rfl, _⟩ := List.cons.inj hnew
          exact h.queries earlier instant number middle hold

omit [Wait ω] [Spans ω τ] in
theorem withQuery (h : Heedful plan w) (hgoing : ¬w.MustEnd) : Heedful plan (w.withQuery plan) := by
  have hjournal : (w.withQuery plan).journal = w.journal ++ [(w.now, .query w.run.queries)] := by
    simp only [World.withQuery, openClient]
    split_ifs <;> rfl
  have hflags : (w.withQuery plan).cancellation = w.cancellation ∧
      (w.withQuery plan).stopped = w.stopped := by
    simp only [World.withQuery, openClient]
    split_ifs <;> exact ⟨rfl, rfl⟩
  have hsilent : ∀ entry ∈ w.journal, entry.2.signals plan = [] := fun entry hentry =>
    of_not_not fun hgiven => hgoing (.inl (h.signalled entry hentry hgiven))
  constructor
  · intro entry hentry hgiven
    rw [hjournal, List.mem_append, List.mem_singleton] at hentry
    rcases hentry with hentry | rfl
    · exact absurd (hsilent entry hentry) hgiven
    · exact absurd rfl hgiven
  · intro earlier instant number later hsplit
    rw [hflags.1]
    rw [hjournal] at hsplit
    rcases List.eq_nil_or_concat later with rfl | ⟨front, last, rfl⟩
    · obtain ⟨rfl, hquery⟩ := List.append_inj' hsplit rfl
      obtain ⟨hinstant, _⟩ := Prod.mk.inj (List.singleton_inj.mp hquery)
      refine ⟨fun due hdue => ?_, hsilent⟩
      rw [← hinstant]
      exact Bool.eq_false_iff.mpr fun hreached => hgoing (.inr ⟨due, hdue, hreached⟩)
    · rw [List.concat_eq_append, ← List.cons_append, ← List.append_assoc] at hsplit
      exact h.queries earlier instant number front (List.append_inj' hsplit rfl).1

end Heedful

theorem heedful_invariant :
    Invariant plan (fun _ => True) fun _ w => Heedful plan w where
  moves := by
    intro w p p' w' hmove h
    rcases hmove.advance with hadvance | ⟨hgoing, rfl⟩
    · exact h.advance hadvance
    · exact h.withQuery hgoing
  helper _ _ before := ⟨before.signalled, before.queries⟩
  serve _ before := ⟨before.signalled, before.queries⟩
  passTime _ _ _ before := ⟨before.signalled, before.queries⟩
  trigger before := before.advance (.trigger plan _ _)
  kill _ before := by
    rw [World.kill]
    split <;> exact ⟨before.signalled, before.queries⟩
  ask _ before := ⟨before.signalled, before.queries⟩
  withdraw _ before := ⟨before.signalled, before.queries⟩

/-- From the moment at which the watch has to end, it has to for good and begins no query. -/
theorem stilled_invariant [OrderedClock τ] (times : List τ) :
    Invariant plan (fun _ => True) fun _ w => w.MustEnd ∧ w.queryTimes = times where
  moves := by
    rintro w p p' w' hmove ⟨hmust, htimes⟩
    rcases hmove.advance with hadvance | ⟨hgoing, rfl⟩
    · exact ⟨hadvance.mustEnd hmust, hadvance.queryTimes.trans htimes⟩
    · exact absurd hmust hgoing
  helper _ _ before := before
  serve _ before := before
  passTime _ later _ before := ⟨before.1.later later, before.2⟩
  trigger {w t} before := by
    have hadvance : Advance plan w (w.trigger t) := .trigger plan w t
    exact ⟨hadvance.mustEnd before.1, hadvance.queryTimes.trans before.2⟩
  kill _ before := by
    rw [World.kill]
    split <;> exact before
  ask _ before := before
  withdraw _ before := before

end World

end Vigil.Watch
