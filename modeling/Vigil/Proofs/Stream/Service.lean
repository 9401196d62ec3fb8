import Mathlib.Data.List.Perm.Basic
import Mathlib.Tactic.SplitIfs
import Vigil.Stream.Traffic

/-!
# What serving a party does

Whoever reasons about the parties on a stream asks two things of a look: what became of the request,
and what became of the buffer.  Both are listed once, request by request.  The order in which the
others wait matters only for fairness, so the parties on a stream are compared up to their order.
-/

namespace Vigil.Stream

variable {ι ε : Type}

/-- The request takes entries off the stream and puts none on it. -/
def Ask.receives : Ask ε → Bool
  | .receive => true
  | .collect _ => true
  | .last _ => true
  | .send _ => false
  | .close => false

/-- The request puts an entry on the stream. -/
def Ask.sends : Ask ε → Bool
  | .send _ => true
  | _ => false

/-- The request was to send and was met. -/
def Reply.isSent : Reply ε → Bool
  | .sent => true
  | _ => false

/-- Every way in which a look can end, with the state of the stream that leads to it. -/
inductive Outlook (s : Stream ε) : Ask ε → Look ε → Prop
  | sent {e : ε} (unclosed : s.closed = false) (room : s.buffer.length < s.capacity) :
      Outlook s (.send e) (.met (s.push e) .sent [e] [])
  | sendDenied {e : ε} (closed : s.closed = true) :
      Outlook s (.send e) (.turnedDown (.denied .sendAfterClose))
  | sendBlocked {e : ε} (unclosed : s.closed = false) (full : s.capacity ≤ s.buffer.length) :
      Outlook s (.send e) (.blocked s (.send e) [])
  | received {e : ε} {rest : List ε} (buffer : s.buffer = e :: rest) :
      Outlook s .receive (.met { s with buffer := rest } (.received e) [] [e])
  | ended (closed : s.closed = true) (empty : s.buffer = []) :
      Outlook s .receive (.turnedDown .ended)
  | receiveBlocked (unclosed : s.closed = false) (empty : s.buffer = []) :
      Outlook s .receive (.blocked s .receive [])
  | collected {got : List ε} (closed : s.closed = true) :
      Outlook s (.collect got)
        (.met { s with buffer := [] } (.collected (got ++ s.buffer)) [] s.buffer)
  | collectBlocked {got : List ε} (unclosed : s.closed = false) :
      Outlook s (.collect got)
        (.blocked { s with buffer := [] } (.collect (got ++ s.buffer)) s.buffer)
  | newest {newest : Option ε} (closed : s.closed = true) :
      Outlook s (.last newest)
        (.met { s with buffer := [] } (.newest (s.buffer.getLast?.or newest)) [] s.buffer)
  | lastBlocked {newest : Option ε} (unclosed : s.closed = false) :
      Outlook s (.last newest)
        (.blocked { s with buffer := [] } (.last (s.buffer.getLast?.or newest)) s.buffer)
  | shut (unclosed : s.closed = false) :
      Outlook s .close (.met { s with closed := true } .closed [] [])
  | closeDenied (closed : s.closed = true) :
      Outlook s .close (.turnedDown (.denied .closeAfterClose))

theorem outlook (s : Stream ε) (ask : Ask ε) : Outlook s ask (look s ask) := by
  cases ask with
  | send e =>
      simp only [look, hasRoom, decide_eq_true_eq]
      split_ifs with hclosed hroom
      · exact .sendDenied hclosed
      · exact .sent (by simpa using hclosed) hroom
      · exact .sendBlocked (by simpa using hclosed) (by omega)
  | receive =>
      simp only [look]
      split
      · exact .received ‹_›
      · split_ifs with hclosed
        · exact .ended hclosed ‹_›
        · exact .receiveBlocked (by simpa using hclosed) ‹_›
  | collect got =>
      simp only [look]
      split_ifs with hclosed
      · exact .collected hclosed
      · exact .collectBlocked (by simpa using hclosed)
  | last newest =>
      simp only [look]
      split_ifs with hclosed
      · exact .newest hclosed
      · exact .lastBlocked (by simpa using hclosed)
  | close =>
      simp only [look]
      split_ifs with hclosed
      · exact .closeDenied hclosed
      · exact .shut (by simpa using hclosed)

/-- The buffer is no fuller than it may be: up to the capacity while the stream is open, and one
last entry beyond it ever. -/
structure Fits (s : Stream ε) : Prop where
  unclosed : s.closed = false → s.buffer.length ≤ s.capacity
  bounded : s.buffer.length ≤ s.capacity + 1

theorem create_eq_ok {capacity : Int} {stream : Stream ε} (hstream : create capacity = .ok stream) :
    stream = ⟨capacity.toNat, [], false⟩ ∧ 1 ≤ capacity := by
  rw [create] at hstream
  split_ifs at hstream with hsmall
  exact ⟨(Except.ok.inj hstream).symm, by omega⟩

namespace Outlook

variable {s stream : Stream ε} {ask ask' : Ask ε} {reply : Reply ε} {accepted taken : List ε}

/-- What a met request took stood at the head of the buffer, and what it put there stands at the
end. -/
theorem met_buffer (h : Outlook s ask (.met stream reply accepted taken)) :
    taken ++ stream.buffer = s.buffer ++ accepted := by
  cases h with
  | sent _ _ => simp [push]
  | received hbuffer => simp [hbuffer]
  | collected _ => simp
  | newest _ => simp
  | shut _ => simp

theorem blocked_buffer (h : Outlook s ask (.blocked stream ask' taken)) :
    taken ++ stream.buffer = s.buffer := by
  cases h <;> simp

/-- A look never changes how many entries a stream may hold. -/
theorem met_capacity (h : Outlook s ask (.met stream reply accepted taken)) :
    stream.capacity = s.capacity := by
  cases h <;> rfl

theorem blocked_capacity (h : Outlook s ask (.blocked stream ask' taken)) :
    stream.capacity = s.capacity := by
  cases h <;> rfl

theorem met_fits (h : Outlook s ask (.met stream reply accepted taken)) (hfits : s.Fits) :
    stream.Fits := by
  obtain ⟨hunclosed, hbounded⟩ := hfits
  cases h with
  | sent _ room => constructor <;> simp [push] <;> omega
  | received hbuffer =>
      simp only [hbuffer, List.length_cons] at hunclosed hbounded
      exact ⟨fun hopen => by have := hunclosed hopen; simp only; omega, by simp only; omega⟩
  | collected _ => constructor <;> simp
  | newest _ => constructor <;> simp
  | shut _ => exact ⟨by simp, hbounded⟩

theorem blocked_fits (h : Outlook s ask (.blocked stream ask' taken)) (hfits : s.Fits) :
    stream.Fits := by
  cases h with
  | sendBlocked _ _ => exact hfits
  | receiveBlocked _ _ => exact hfits
  | collectBlocked _ => constructor <;> simp
  | lastBlocked _ => constructor <;> simp

/-- Only requests on an open stream are held up. -/
theorem blocked_unclosed (h : Outlook s ask (.blocked stream ask' taken)) :
    s.closed = false ∧ stream.closed = false := by
  cases h with
  | sendBlocked hopen _ => exact ⟨hopen, hopen⟩
  | receiveBlocked hopen _ => exact ⟨hopen, hopen⟩
  | collectBlocked hopen => exact ⟨hopen, hopen⟩
  | lastBlocked hopen => exact ⟨hopen, hopen⟩

/-- A request that takes entries puts none on the stream and leaves it open or closed as it was. -/
theorem met_of_receives (h : Outlook s ask (.met stream reply accepted taken))
    (hask : ask.receives = true) : accepted = [] ∧ stream.closed = s.closed := by
  cases h with
  | sent _ _ => cases hask
  | received _ => exact ⟨rfl, rfl⟩
  | collected _ => exact ⟨rfl, rfl⟩
  | newest _ => exact ⟨rfl, rfl⟩
  | shut _ => cases hask

/-- Only a request that offers an entry puts one on the stream. -/
theorem met_of_not_sends (h : Outlook s ask (.met stream reply accepted taken))
    (hask : ask.sends = false) : accepted = [] := by
  cases h with
  | sent _ _ => cases hask
  | received _ => rfl
  | collected _ => rfl
  | newest _ => rfl
  | shut _ => rfl

/-- A closed stream is not opened again. -/
theorem met_of_closed (h : Outlook s ask (.met stream reply accepted taken))
    (hclosed : s.closed = true) : stream.closed = true := by
  cases h with
  | sent _ _ => exact hclosed
  | received _ => exact hclosed
  | collected _ => exact hclosed
  | newest _ => exact hclosed
  | shut _ => rfl

/-- A request that is held up stays of its kind. -/
theorem blocked_receives (h : Outlook s ask (.blocked stream ask' taken)) :
    ask'.receives = ask.receives := by
  cases h <;> rfl

theorem blocked_sends (h : Outlook s ask (.blocked stream ask' taken)) :
    ask'.sends = ask.sends := by
  cases h <;> rfl

end Outlook

namespace Traffic

/-- Everybody whose request has not ended. -/
def parties (t : Traffic ι ε) : List (Party ι ε) := t.waiting ++ t.ready

@[simp]
theorem parties_onto (s : Stream ε) : (onto s : Traffic ι ε).parties = [] := rfl

@[simp]
theorem parties_start (t : Traffic ι ε) (id : ι) (ask : Ask ε) :
    (t.start id ask).parties = t.parties ++ [⟨id, ask, false⟩] := by
  simp [parties, start]

/-- What serving a party does to a state, apart from the order of the others. -/
inductive Served (t : Traffic ι ε) (party : Party ι ε) (others : List (Party ι ε))
    (t' : Traffic ι ε) : Prop
  | withdrawn (left : party.withdrawn = true) (parties : t'.parties.Perm others)
      (finished : t'.finished = t.finished ++ [(party.id, .withdrawn)])
      (stream : t'.stream = t.stream) (accepted : t'.accepted = t.accepted)
      (taken : t'.taken = t.taken)
  | met {stream : Stream ε} {reply : Reply ε} {new gone : List ε}
      (stayed : party.withdrawn = false)
      (outlook : Outlook t.stream party.ask (.met stream reply new gone))
      (parties : t'.parties.Perm others)
      (finished : t'.finished = t.finished ++ [(party.id, reply)]) (stream : t'.stream = stream)
      (accepted : t'.accepted = t.accepted ++ new) (taken : t'.taken = t.taken ++ gone)
  | turnedDown {reply : Reply ε} (stayed : party.withdrawn = false)
      (outlook : Outlook t.stream party.ask (.turnedDown reply))
      (parties : t'.parties.Perm others)
      (finished : t'.finished = t.finished ++ [(party.id, reply)])
      (stream : t'.stream = t.stream) (accepted : t'.accepted = t.accepted)
      (taken : t'.taken = t.taken)
  | blocked {stream : Stream ε} {ask : Ask ε} {gone : List ε}
      (stayed : party.withdrawn = false)
      (outlook : Outlook t.stream party.ask (.blocked stream ask gone))
      (parties : t'.parties.Perm ({ party with ask := ask } :: others))
      (finished : t'.finished = t.finished) (stream : t'.stream = stream)
      (accepted : t'.accepted = t.accepted) (taken : t'.taken = t.taken ++ gone)

theorem parties_wake (t : Traffic ι ε) : t.wake.parties.Perm t.parties := by
  simpa [parties, wake] using List.perm_append_comm

theorem parties_enqueue (t : Traffic ι ε) (party : Party ι ε) :
    (t.enqueue party).parties.Perm (party :: t.parties) := by
  simp [parties, enqueue]

@[simp]
theorem parties_finish (t : Traffic ι ε) (id : ι) (reply : Reply ε) :
    (t.finish id reply).parties = t.parties := rfl

theorem serve_served (t : Traffic ι ε) (party : Party ι ε) :
    Served t party t.parties (t.serve party) := by
  rw [serve]
  split_ifs with hwithdrawn
  · exact .withdrawn hwithdrawn (.refl _) rfl rfl rfl rfl
  · have hstayed : party.withdrawn = false := by simpa using hwithdrawn
    have houtlook := outlook t.stream party.ask
    split
    · rename_i stream reply accepted taken hlook
      rw [hlook] at houtlook
      exact .met hstayed houtlook (parties_wake _) rfl rfl rfl rfl
    · rename_i reply hlook
      rw [hlook] at houtlook
      exact .turnedDown hstayed houtlook (.refl _) rfl rfl rfl rfl
    · rename_i stream ask taken hlook
      rw [hlook] at houtlook
      -- the others are woken only if the party took something
      by_cases htaken : taken.isEmpty
      · simp only [htaken, if_true]
        exact .blocked hstayed houtlook (parties_enqueue _ _) rfl rfl rfl rfl
      · simp only [htaken]
        refine .blocked hstayed houtlook ?_ rfl rfl rfl rfl
        exact (parties_enqueue _ _).trans ((parties_wake _).cons _)

/-- Serving a position serves the party there and leaves the others on the stream. -/
theorem serveAt_served {t : Traffic ι ε} {position : Nat} {party : Party ι ε}
    (hparty : t.ready[position]? = some party) :
    ∃ others, t.parties.Perm (party :: others) ∧ Served t party others (t.serveAt position) := by
  obtain ⟨hposition, hget⟩ := List.getElem?_eq_some_iff.mp hparty
  have hready : (party :: t.ready.eraseIdx position).Perm t.ready := by
    rw [← hget]
    exact List.getElem_cons_eraseIdx_perm hposition
  refine ⟨t.waiting ++ t.ready.eraseIdx position, ?_, ?_⟩
  · exact (hready.symm.append_left t.waiting).trans List.perm_middle
  · have hserved :=
      serve_served { t with ready := t.ready.eraseIdx position } party
    simp only [serveAt, hparty]
    cases hserved with
    | withdrawn left parties finished stream accepted taken =>
        exact .withdrawn left parties finished stream accepted taken
    | met stayed outlook parties finished stream accepted taken =>
        exact .met stayed outlook parties finished stream accepted taken
    | turnedDown stayed outlook parties finished stream accepted taken =>
        exact .turnedDown stayed outlook parties finished stream accepted taken
    | blocked stayed outlook parties finished stream accepted taken =>
        exact .blocked stayed outlook parties finished stream accepted taken

theorem serveAt_of_none {t : Traffic ι ε} {position : Nat}
    (hparty : t.ready[position]? = none) : t.serveAt position = t := by
  simp [serveAt, hparty]

/-! ### Withdrawing and closing on the spot -/

section Withdraw

variable [BEq ι]

@[simp]
theorem withdraw_stream (t : Traffic ι ε) (id : ι) : (t.withdraw id).stream = t.stream := rfl

@[simp]
theorem withdraw_finished (t : Traffic ι ε) (id : ι) :
    (t.withdraw id).finished = t.finished := rfl

@[simp]
theorem withdraw_accepted (t : Traffic ι ε) (id : ι) :
    (t.withdraw id).accepted = t.accepted := rfl

@[simp]
theorem withdraw_taken (t : Traffic ι ε) (id : ι) : (t.withdraw id).taken = t.taken := rfl

/-- A withdrawn party is marked, and the others stay as they were. -/
theorem parties_withdraw (t : Traffic ι ε) (id : ι) :
    (t.withdraw id).parties.Perm
      (t.parties.map fun party =>
        if party.id == id then { party with withdrawn := true } else party) := by
  set mark : Party ι ε → Party ι ε := fun party =>
    if party.id == id then { party with withdrawn := true } else party with hmark
  have hstaying : (t.waiting.filter fun party => !(party.id == id)).map mark =
      t.waiting.filter fun party => !(party.id == id) := by
    refine (List.map_congr_left fun party hparty => ?_).trans (List.map_id _)
    have hother : (party.id == id) = false := by simpa using (List.mem_filter.mp hparty).2
    simp [hmark, hother]
  have hsplit : t.waiting.Perm
      ((t.waiting.filter fun party => !(party.id == id)) ++
        t.waiting.filter fun party => party.id == id) :=
    ((List.filter_append_perm _ t.waiting).symm).trans List.perm_append_comm
  have hmap := hsplit.map mark
  rw [List.map_append, hstaying] at hmap
  simp only [parties, withdraw, List.partition_eq_filter_filter, List.map_append]
  refine (List.perm_append_comm.append_left _).trans ?_
  rw [← List.append_assoc]
  exact hmap.symm.append_right _

/-- It does not matter to withdrawing what the parties ask for, since it goes by their names. -/
theorem lists_withdraw {δ : Type} (t : Traffic ι ε) (t' : Traffic ι δ)
    (change : Party ι ε → Party ι δ) (hid : ∀ party, (change party).id = party.id)
    (hmark : ∀ party, { change party with withdrawn := true } =
      change { party with withdrawn := true })
    (hwaiting : t'.waiting = t.waiting.map change) (hready : t'.ready = t.ready.map change)
    (id : ι) :
    (t'.withdraw id).waiting = (t.withdraw id).waiting.map change ∧
      (t'.withdraw id).ready = (t.withdraw id).ready.map change := by
  have hfilter (keep : ι → Bool) :
      (t'.waiting.filter fun party => keep party.id) =
        (t.waiting.filter fun party => keep party.id).map change := by
    simp [hwaiting, List.filter_map, Function.comp_def, hid]
  have hleaving := hfilter fun other => other == id
  have hstaying := hfilter fun other => !(other == id)
  simp only [withdraw, List.partition_eq_filter_filter, Function.comp_def, hleaving, hready,
    ← List.map_append, List.map_map]
  refine ⟨hstaying, List.map_congr_left fun party _ => ?_⟩
  have hsame : ((change party).id == id) = (party.id == id) := by rw [hid]
  simp only [hsame]
  split_ifs
  · exact hmark party
  · rfl

/-- Withdrawing a party marks it among those of a kind as it does among all. -/
theorem filter_parties_withdraw (t : Traffic ι ε) (id : ι) (kind : ι → Bool) :
    ((t.withdraw id).parties.filter fun party => kind party.id).Perm
      ((t.parties.filter fun party => kind party.id).map fun party =>
        if party.id == id then { party with withdrawn := true } else party) := by
  have hkind : ((fun party : Party ι ε => kind party.id) ∘ fun party =>
      if party.id == id then { party with withdrawn := true } else party) =
      fun party => kind party.id := by
    funext party
    simp only [Function.comp]
    split_ifs <;> rfl
  have hperm := (parties_withdraw t id).filter fun party => kind party.id
  rwa [List.filter_map, hkind] at hperm

/-- Withdrawing a party leaves those of another kind as they were. -/
theorem filter_parties_withdraw_of_ne [LawfulBEq ι] (t : Traffic ι ε) {id : ι} (kind : ι → Bool)
    (hid : kind id = false) :
    ((t.withdraw id).parties.filter fun party => kind party.id).Perm
      (t.parties.filter fun party => kind party.id) := by
  refine (filter_parties_withdraw t id kind).trans ?_
  rw [List.map_congr_left fun party hparty => ?_, List.map_id']
  have hkind : kind party.id = true := by simpa using (List.mem_filter.mp hparty).2
  rw [if_neg]
  intro hsame
  rw [beq_iff_eq.mp hsame, hid] at hkind
  cases hkind

end Withdraw

theorem closeNow_of_unclosed {t : Traffic ι ε} (hopen : t.stream.closed = false) :
    t.closeNow = .ok ({ t with stream := { t.stream with closed := true } }.wake) := by
  simp [closeNow, close, hopen, bind, Except.bind, pure, Except.pure]

theorem closeNow_of_closed {t : Traffic ι ε} (hclosed : t.stream.closed = true) :
    t.closeNow = .error .closeAfterClose := by
  simp [closeNow, close, hclosed, bind, Except.bind]

theorem sendFinal_of_unclosed {t : Traffic ι ε} (hopen : t.stream.closed = false) (e : ε) :
    t.sendFinal e =
      .ok ({ t with
        stream := { t.stream.push e with closed := true }
        accepted := t.accepted ++ [e] }.wake) := by
  simp [sendFinal, Stream.sendFinal, hopen, bind, Except.bind, pure, Except.pure]

theorem sendFinal_of_closed {t : Traffic ι ε} (hclosed : t.stream.closed = true) (e : ε) :
    t.sendFinal e = .error .sendAfterClose := by
  simp [sendFinal, Stream.sendFinal, hclosed, bind, Except.bind]

end Traffic

end Vigil.Stream
