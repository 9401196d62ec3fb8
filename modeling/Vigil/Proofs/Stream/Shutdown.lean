import Vigil.Proofs.Stream.Wakeup

/-!
# How a stream is shut down

Of all calls that close a stream, with or without a last entry, the first succeeds on the spot,
however full the stream is and whoever waits there, and every other one fails.  From then on the
stream is a list that is drained: who looks is told what it says about the entries that are left,
and nobody ever waits again.
-/

namespace Vigil.Stream

variable {ι ε : Type}

/-- The reply says that the request was turned down or its party withdrawn. -/
def Reply.fails : Reply ε → Bool
  | .denied _ => true
  | .withdrawn => true
  | _ => false

/-- What a request is told on a closed stream that has some entries left. -/
def Ask.lastWord (left : List ε) : Ask ε → Reply ε
  | .send _ => .denied .sendAfterClose
  | .receive =>
      match left with
      | entry :: _ => .received entry
      | [] => .ended
  | .collect got => .collected (got ++ left)
  | .last newest => .newest (left.getLast?.or newest)
  | .close => .denied .closeAfterClose

/-- What a request leaves there. -/
def Ask.leftover (left : List ε) : Ask ε → List ε
  | .receive => left.tail
  | .collect _ => []
  | .last _ => []
  | .send _ => left
  | .close => left

/-- What a party is told on a closed stream that has some entries left. -/
def Party.lastWord (left : List ε) (party : Party ι ε) : Reply ε :=
  if party.withdrawn then .withdrawn else party.ask.lastWord left

/-- What a party leaves there. -/
def Party.leftover (left : List ε) (party : Party ι ε) : List ε :=
  if party.withdrawn then left else party.ask.leftover left

/-- The answers that some parties get who look at a closed stream one after the other. -/
def drain : List ε → List (Party ι ε) → List (ι × Reply ε)
  | _, [] => []
  | left, party :: parties =>
      (party.id, party.lastWord left) :: drain (party.leftover left) parties

/-- What they leave there. -/
def remains (left : List ε) (parties : List (Party ι ε)) : List ε :=
  parties.foldl Party.leftover left

theorem drain_append (left : List ε) (parties others : List (Party ι ε)) :
    drain left (parties ++ others) = drain left parties ++ drain (remains left parties) others := by
  induction parties generalizing left with
  | nil => rfl
  | cons party parties ih =>
      rw [List.cons_append, drain, drain, ih, List.cons_append]
      rfl

theorem remains_append (left : List ε) (parties others : List (Party ι ε)) :
    remains left (parties ++ others) = remains (remains left parties) others :=
  List.foldl_append

/-- Every sender among them fails. -/
theorem mem_drain_of_send {left : List ε} {parties : List (Party ι ε)} {id : ι} {entry : ε}
    {gone : Bool} (hparty : ⟨id, .send entry, gone⟩ ∈ parties) :
    (id, if gone then .withdrawn else .denied .sendAfterClose) ∈ drain left parties := by
  induction parties generalizing left with
  | nil => cases hparty
  | cons party parties ih =>
      rw [drain]
      rcases List.mem_cons.mp hparty with rfl | hparty
      · exact List.mem_cons_self
      · exact List.mem_cons_of_mem _ (ih hparty)

/-! ### One look at a closed stream -/

namespace Outlook

variable {s stream : Stream ε} {ask : Ask ε} {reply : Reply ε} {accepted taken : List ε}

theorem met_lastWord (h : Outlook s ask (.met stream reply accepted taken))
    (hclosed : s.closed = true) :
    reply = ask.lastWord s.buffer ∧ accepted = [] ∧
      stream = { s with buffer := ask.leftover s.buffer } := by
  have hnot (hunclosed : s.closed = false) : False :=
    Bool.false_ne_true (hunclosed.symm.trans hclosed)
  cases h with
  | sent unclosed _ => exact (hnot unclosed).elim
  | shut unclosed => exact (hnot unclosed).elim
  | received buffer => simp [Ask.lastWord, Ask.leftover, buffer]
  | collected _ => exact ⟨rfl, rfl, rfl⟩
  | newest _ => exact ⟨rfl, rfl, rfl⟩

theorem turnedDown_lastWord (h : Outlook s ask (.turnedDown reply)) :
    reply = ask.lastWord s.buffer ∧ ask.leftover s.buffer = s.buffer := by
  cases h with
  | sendDenied _ => exact ⟨rfl, rfl⟩
  | closeDenied _ => exact ⟨rfl, rfl⟩
  | ended _ empty => simp [Ask.lastWord, Ask.leftover, empty]

/-- A request that is met has not failed. -/
theorem met_fails (h : Outlook s ask (.met stream reply accepted taken)) :
    reply.fails = false := by
  cases h <;> rfl

/-- Of all requests only a close closes an open stream. -/
theorem met_closed_iff (h : Outlook s ask (.met stream reply accepted taken))
    (hopen : s.closed = false) : stream.closed = true ↔ ask = .close := by
  cases h with
  | sent _ _ => simp [push, hopen]
  | received _ => simp [hopen]
  | collected closed => cases hopen.symm.trans closed
  | newest closed => cases hopen.symm.trans closed
  | shut _ => simp

theorem turnedDown_closed (h : Outlook s ask (.turnedDown reply)) : s.closed = true := by
  cases h with
  | sendDenied closed => exact closed
  | ended closed _ => exact closed
  | closeDenied closed => exact closed

theorem blocked_ne_close {ask' : Ask ε} (h : Outlook s ask (.blocked stream ask' taken)) :
    ask ≠ .close := by
  cases h <;> nofun

end Outlook

namespace Traffic

theorem Served.of_closed {t t' : Traffic ι ε} {party : Party ι ε} {others : List (Party ι ε)}
    (h : Served t party others t') (hclosed : t.stream.closed = true) :
    t'.stream = { t.stream with buffer := party.leftover t.stream.buffer } ∧
      t'.finished = t.finished ++ [(party.id, party.lastWord t.stream.buffer)] ∧
      t'.accepted = t.accepted ∧ t'.parties.Perm others := by
  cases h with
  | withdrawn left parties finished stream accepted _ =>
      simp only [Party.leftover, Party.lastWord, left, if_true]
      exact ⟨stream, finished, accepted, parties⟩
  | met stayed outlook parties finished stream accepted _ =>
      obtain ⟨rfl, rfl, rfl⟩ := outlook.met_lastWord hclosed
      simp only [Party.leftover, Party.lastWord, stayed, Bool.false_eq_true, if_false]
      exact ⟨stream, finished, accepted.trans (List.append_nil _), parties⟩
  | turnedDown stayed outlook parties finished stream accepted _ =>
      obtain ⟨rfl, hleft⟩ := outlook.turnedDown_lastWord
      simp only [Party.leftover, Party.lastWord, stayed, Bool.false_eq_true, if_false, hleft]
      exact ⟨stream, finished, accepted, parties⟩
  | blocked _ outlook _ _ _ _ _ =>
      have hunclosed := outlook.blocked_unclosed.1
      rw [hclosed] at hunclosed
      cases hunclosed

end Traffic

/-- What a party asks for, whether it is withdrawn or not. -/
def Party.request (party : Party ι ε) : ι × Ask ε := (party.id, party.ask)

/-- The party that comes with a step. -/
def Step.comes : Step ι ε → List (Party ι ε)
  | .start id ask => [⟨id, ask, false⟩]
  | _ => []

/-- The parties that come with some steps. -/
def newcomers (steps : List (Step ι ε)) : List (Party ι ε) := steps.flatMap Step.comes

namespace Traffic

/-- The party that looks in a step. -/
def looks (t : Traffic ι ε) : Step ι ε → List (Party ι ε)
  | .serve position => t.ready[position]?.toList
  | _ => []

/-- What some looks at a closed stream make of it, while some parties come. -/
structure Drained (t t' : Traffic ι ε) (looking new : List (Party ι ε)) : Prop where
  stream : t'.stream = { t.stream with buffer := remains t.stream.buffer looking }
  finished : t'.finished = t.finished ++ drain t.stream.buffer looking
  accepted : t'.accepted = t.accepted
  /-- Who was there or came has looked or is still to look. -/
  requests : ((looking ++ t'.parties).map Party.request).Perm
    ((t.parties ++ new).map Party.request)

namespace Drained

variable {t t' t'' : Traffic ι ε} {looking looking' new new' : List (Party ι ε)}

theorem refl (t : Traffic ι ε) : Drained t t [] [] := by
  constructor <;> simp [remains, drain]

theorem trans (h : Drained t t' looking new) (h' : Drained t' t'' looking' new') :
    Drained t t'' (looking ++ looking') (new ++ new') where
  stream := by rw [h'.stream, h.stream, remains_append]
  finished := by rw [h'.finished, h.finished, h.stream, drain_append, List.append_assoc]
  accepted := h'.accepted.trans h.accepted
  requests := by
    have hlater := h'.requests.append_left (looking.map Party.request)
    have hbefore := h.requests.append_right (new'.map Party.request)
    simp only [List.map_append, List.append_assoc] at hlater hbefore ⊢
    exact hlater.trans hbefore

/-- Parties come, are marked and look; the entries stay. -/
theorem of_parties (hstream : t'.stream = t.stream) (hfinished : t'.finished = t.finished)
    (haccepted : t'.accepted = t.accepted)
    (hparties : (t'.parties.map Party.request).Perm ((t.parties ++ new).map Party.request)) :
    Drained t t' [] new where
  stream := by rw [hstream]; rfl
  finished := by rw [hfinished, drain, List.append_nil]
  accepted := haccepted
  requests := hparties

end Drained

variable [BEq ι]

theorem drained_step {t : Traffic ι ε} (hclosed : t.stream.closed = true) (s : Step ι ε) :
    Drained t (t.step s) (t.looks s) s.comes := by
  cases s with
  | start id ask =>
      have hparties : ((t.start id ask).parties.map Party.request).Perm
          ((t.parties ++ [(⟨id, ask, false⟩ : Party ι ε)]).map Party.request) := by
        rw [parties_start]
      exact .of_parties rfl rfl rfl hparties
  | serve position =>
      rw [step, looks]
      cases hparty : t.ready[position]? with
      | none =>
          rw [serveAt_of_none hparty]
          exact .refl t
      | some party =>
          obtain ⟨others, hparties, hserved⟩ := serveAt_served hparty
          obtain ⟨hstream, hfinished, haccepted, hothers⟩ := hserved.of_closed hclosed
          refine ⟨hstream, hfinished, haccepted, ?_⟩
          have hrest : (party :: (t.serveAt position).parties).Perm t.parties :=
            (hothers.cons party).trans hparties.symm
          simpa [Step.comes] using hrest.map Party.request
  | withdraw id =>
      have hmarked := (parties_withdraw t id).map Party.request
      have hsame : Party.request ∘ (fun party : Party ι ε =>
          if party.id == id then { party with withdrawn := true } else party) =
          Party.request := by
        funext party
        simp only [Function.comp]
        split_ifs <;> rfl
      rw [List.map_map, hsame, ← List.append_nil t.parties] at hmarked
      exact .of_parties rfl rfl rfl hmarked
  | close =>
      rw [step, closeNow_of_closed hclosed]
      exact .refl t
  | sendFinal entry =>
      rw [step, sendFinal_of_closed hclosed]
      exact .refl t

/-- The parties that look in the course of some steps, in order. -/
def looking (t : Traffic ι ε) : List (Step ι ε) → List (Party ι ε)
  | [] => []
  | s :: steps => t.looks s ++ (t.step s).looking steps

theorem drained_stepAll {t : Traffic ι ε} (hclosed : t.stream.closed = true)
    (steps : List (Step ι ε)) :
    Drained t (t.stepAll steps) (t.looking steps) (newcomers steps) := by
  induction steps generalizing t with
  | nil => exact .refl t
  | cons s steps ih =>
      have hstep := drained_step hclosed s
      have hstill : (t.step s).stream.closed = true := by rw [hstep.stream, hclosed]
      exact hstep.trans (ih hstill)

/-! ### Calls that close the stream -/

/-- How a call that closes the stream ended, if one ends in a step: with or without a last entry, on
the spot or when its party looks.  A party that was withdrawn has not called. -/
def closing? (t : Traffic ι ε) (s : Step ι ε) : Option (Except Denial Unit) :=
  match s with
  | .serve position =>
      match t.ready[position]?, t.replies s with
      | some ⟨_, .close, _⟩, [(_, .closed)] => some (.ok ())
      | some ⟨_, .close, _⟩, [(_, .denied d)] => some (.error d)
      | _, _ => none
  | .close => some (t.closeNow.map fun _ => ())
  | .sendFinal entry => some ((t.sendFinal entry).map fun _ => ())
  | _ => none

/-- How the calls that close the stream ended in the course of some steps, in order. -/
def closings (t : Traffic ι ε) : List (Step ι ε) → List (Except Denial Unit)
  | [] => []
  | s :: steps => (t.closing? s).toList ++ (t.step s).closings steps

/-- Either no such call has ended and the stream is open, or the first succeeded, all others were
turned down, and the stream is closed. -/
inductive ClosedOnce (closed : Bool) : List (Except Denial Unit) → Prop
  | never (unclosed : closed = false) : ClosedOnce closed []
  | once (denials : List Denial) (shut : closed = true) :
      ClosedOnce closed (.ok () :: denials.map .error)

variable {t : Traffic ι ε}

/-- Whoever wants to close the stream is told at its first look how that ended. -/
theorem replies_of_close {position : Nat} {party : Party ι ε}
    (hparty : t.ready[position]? = some party) (hask : party.ask = .close) :
    t.replies (.serve position) =
      [(party.id, if party.withdrawn then .withdrawn
        else if t.stream.closed then .denied .closeAfterClose else .closed)] := by
  obtain ⟨others, _, hserved⟩ := serveAt_served hparty
  obtain ⟨id, ask, gone⟩ := party
  cases hask
  cases hserved with
  | withdrawn left _ finished _ _ _ =>
      rw [replies_eq (s := .serve position) finished]
      simp only at left
      simp [left]
  | met stayed outlook _ finished _ _ _ =>
      rw [replies_eq (s := .serve position) finished]
      simp only at stayed outlook
      cases outlook with
      | shut unclosed => simp [stayed, unclosed]
  | turnedDown stayed outlook _ finished _ _ _ =>
      rw [replies_eq (s := .serve position) finished]
      simp only at stayed outlook
      cases outlook with
      | closeDenied closed => simp [stayed, closed]
  | blocked _ outlook _ _ _ _ _ =>
      simp only at outlook
      cases outlook

theorem closing?_serve_of_close {position : Nat} {party : Party ι ε}
    (hparty : t.ready[position]? = some party) (hask : party.ask = .close) :
    t.closing? (.serve position) =
      if party.withdrawn then none
      else some (if t.stream.closed then .error .closeAfterClose else .ok ()) := by
  have hreplies := replies_of_close hparty hask
  obtain ⟨id, ask, gone⟩ := party
  cases hask
  cases gone <;> cases hclosed : t.stream.closed <;> simp [closing?, hparty, hreplies, hclosed]

theorem closing?_serve_of_ne {position : Nat} {party : Party ι ε}
    (hparty : t.ready[position]? = some party) (hask : party.ask ≠ .close) :
    t.closing? (.serve position) = none := by
  obtain ⟨id, ask, gone⟩ := party
  cases ask with
  | close => exact absurd rfl hask
  | _ => simp [closing?, hparty]

theorem closing?_close (t : Traffic ι ε) :
    t.closing? .close = some (if t.stream.closed then .error .closeAfterClose else .ok ()) := by
  cases hclosed : t.stream.closed with
  | true => simp [closing?, closeNow_of_closed hclosed, Except.map]
  | false => simp [closing?, closeNow_of_unclosed hclosed, Except.map]

theorem closing?_sendFinal (t : Traffic ι ε) (entry : ε) :
    t.closing? (.sendFinal entry) =
      some (if t.stream.closed then .error .sendAfterClose else .ok ()) := by
  cases hclosed : t.stream.closed with
  | true => simp [closing?, sendFinal_of_closed hclosed, Except.map]
  | false => simp [closing?, sendFinal_of_unclosed hclosed, Except.map]

/-- On a closed stream no such call succeeds. -/
theorem closing?_of_closed (hclosed : t.stream.closed = true) (s : Step ι ε) :
    t.closing? s = none ∨ ∃ d, t.closing? s = some (.error d) := by
  cases s with
  | start id ask => exact .inl rfl
  | withdraw id => exact .inl rfl
  | close => exact .inr ⟨_, by rw [closing?_close, if_pos hclosed]⟩
  | sendFinal entry => exact .inr ⟨_, by rw [closing?_sendFinal, if_pos hclosed]⟩
  | serve position =>
      cases hparty : t.ready[position]? with
      | none => exact .inl (by simp [closing?, hparty])
      | some party =>
          by_cases hask : party.ask = .close
          · rw [closing?_serve_of_close hparty hask, if_pos hclosed]
            by_cases hgone : party.withdrawn = true
            · exact .inl (if_pos hgone)
            · exact .inr ⟨_, if_neg hgone⟩
          · exact .inl (closing?_serve_of_ne hparty hask)

omit [BEq ι] in
/-- A look closes an open stream exactly if a party wants that and was not withdrawn. -/
theorem serveAt_closed_of_unclosed (hopen : t.stream.closed = false) {position : Nat}
    {party : Party ι ε} (hparty : t.ready[position]? = some party) :
    (t.serveAt position).stream.closed = true ↔ party.ask = .close ∧ party.withdrawn = false := by
  obtain ⟨others, _, hserved⟩ := serveAt_served hparty
  cases hserved with
  | withdrawn left _ _ stream _ _ => simp [stream, hopen, left]
  | met stayed outlook _ _ stream _ _ =>
      rw [stream, outlook.met_closed_iff hopen, and_iff_left stayed]
  | turnedDown _ outlook _ _ _ _ _ =>
      cases outlook.turnedDown_closed.symm.trans hopen
  | blocked _ outlook _ _ stream _ _ =>
      rw [stream, outlook.blocked_unclosed.2]
      simp [outlook.blocked_ne_close]

/-- On an open stream such a call succeeds, and nothing else closes the stream. -/
theorem closing?_of_unclosed (hopen : t.stream.closed = false) (s : Step ι ε) :
    t.closing? s = if (t.step s).stream.closed then some (.ok ()) else none := by
  cases s with
  | start id ask => simp [closing?, step, start, hopen]
  | withdraw id => simp [closing?, step, hopen]
  | close => simp [closing?_close, step, closeNow_of_unclosed hopen, wake, hopen]
  | sendFinal entry => simp [closing?_sendFinal, step, sendFinal_of_unclosed hopen, wake, hopen]
  | serve position =>
      rw [step]
      cases hparty : t.ready[position]? with
      | none => simp [closing?, hparty, serveAt_of_none hparty, hopen]
      | some party =>
          have hcloses := serveAt_closed_of_unclosed hopen hparty
          by_cases hask : party.ask = .close
          · rw [closing?_serve_of_close hparty hask]
            cases hgone : party.withdrawn <;> simp_all
          · rw [closing?_serve_of_ne hparty hask, if_neg]
            intro hshut
            exact hask (hcloses.mp hshut).1

/-- Once the stream is closed, all calls are turned down. -/
theorem closings_of_closed (hclosed : t.stream.closed = true) (steps : List (Step ι ε)) :
    ∃ denials : List Denial, t.closings steps = denials.map .error := by
  induction steps generalizing t with
  | nil => exact ⟨[], rfl⟩
  | cons s steps ih =>
      have hstill : (t.step s).stream.closed = true := by
        rw [(drained_step hclosed s).stream, hclosed]
      obtain ⟨denials, hdenials⟩ := ih hstill
      rcases closing?_of_closed hclosed s with hnone | ⟨d, hdenied⟩
      · exact ⟨denials, by simp [closings, hnone, hdenials]⟩
      · exact ⟨d :: denials, by simp [closings, hdenied, hdenials]⟩

theorem closedOnce_of_unclosed (hopen : t.stream.closed = false) (steps : List (Step ι ε)) :
    ClosedOnce (t.stepAll steps).stream.closed (t.closings steps) := by
  induction steps generalizing t with
  | nil => exact .never hopen
  | cons s steps ih =>
      have hcall := closing?_of_unclosed hopen s
      cases hclosed : (t.step s).stream.closed with
      | false =>
          rw [hclosed] at hcall
          have hlater := ih hclosed
          simp only [closings, hcall]
          exact hlater
      | true =>
          rw [hclosed] at hcall
          obtain ⟨denials, hdenials⟩ := closings_of_closed hclosed steps
          have hshut : ((t.step s).stepAll steps).stream.closed = true := by
            rw [(drained_stepAll hclosed steps).stream, hclosed]
          simp only [closings, hcall, hdenials]
          exact .once denials hshut

/-! ### Calls that fail -/

theorem stream_of_fails {s : Step ι ε} {answer : ι × Reply ε} (hanswer : answer ∈ t.replies s)
    (hfails : answer.2.fails = true) : (t.step s).stream = t.stream := by
  have hsilent (hfinished : (t.step s).finished = t.finished) : False := by
    rw [replies_eq (hfinished.trans (List.append_nil _).symm)] at hanswer
    cases hanswer
  cases s with
  | start id ask => exact (hsilent rfl).elim
  | withdraw id => exact (hsilent rfl).elim
  | close =>
      cases hclosed : t.stream.closed with
      | true => rw [step, closeNow_of_closed hclosed]
      | false => exact (hsilent (by rw [step, closeNow_of_unclosed hclosed]; rfl)).elim
  | sendFinal entry =>
      cases hclosed : t.stream.closed with
      | true => rw [step, sendFinal_of_closed hclosed]
      | false => exact (hsilent (by rw [step, sendFinal_of_unclosed hclosed]; rfl)).elim
  | serve position =>
      cases hparty : t.ready[position]? with
      | none => rw [step, serveAt_of_none hparty]
      | some party =>
          obtain ⟨others, _, hserved⟩ := serveAt_served hparty
          cases hserved with
          | withdrawn _ _ _ stream _ _ => exact stream
          | turnedDown _ _ _ _ stream _ _ => exact stream
          | met _ outlook _ finished _ _ _ =>
              rw [replies_eq (s := .serve position) finished, List.mem_singleton] at hanswer
              rw [hanswer, outlook.met_fails] at hfails
              cases hfails
          | blocked _ _ _ finished _ _ _ => exact (hsilent finished).elim

theorem stream_of_closing?_denied {s : Step ι ε} {d : Denial}
    (hdenied : t.closing? s = some (.error d)) : (t.step s).stream = t.stream := by
  cases hclosed : t.stream.closed with
  | false =>
      rw [closing?_of_unclosed hclosed] at hdenied
      split_ifs at hdenied
      cases hdenied
  | true =>
      have hdrained := drained_step hclosed s
      cases s with
      | start id ask => cases hdenied
      | withdraw id => cases hdenied
      | close => exact hdrained.stream
      | sendFinal entry => exact hdrained.stream
      | serve position =>
          cases hparty : t.ready[position]? with
          | none => rw [step, serveAt_of_none hparty]
          | some party =>
              -- a party that wants to close the stream takes nothing off it
              by_cases hask : party.ask = .close
              · rw [hdrained.stream, looks, hparty]
                simp [remains, Party.leftover, hask, Ask.leftover]
              · rw [closing?_serve_of_ne hparty hask] at hdenied
                cases hdenied

/-! ### Before and after -/

/-- What calls that close a stream can rely on, however full it is and whoever waits there: they are
answered at once, and one that fails changes nothing, like every request that fails. -/
structure Prompt (t : Traffic ι ε) : Prop where
  close : t.closing? .close = some (if t.stream.closed then .error .closeAfterClose else .ok ())
  sendFinal : ∀ entry, t.closing? (.sendFinal entry) =
    some (if t.stream.closed then .error .sendAfterClose else .ok ())
  /-- A party that wants to close the stream does not wait. -/
  answered : ∀ position party, t.ready[position]? = some party → party.ask = .close →
    t.replies (.serve position) =
      [(party.id, if party.withdrawn then .withdrawn
        else if t.stream.closed then .denied .closeAfterClose else .closed)]
  neverWaits : ∀ party ∈ t.waiting, party.ask ≠ .close
  failed : ∀ s, (∃ answer ∈ t.replies s, answer.2.fails = true) ∨
    (∃ d, t.closing? s = some (.error d)) → (t.step s).stream = t.stream

/-- What becomes of a closed stream and of everybody on it in the course of some steps. -/
structure Shutdown (t : Traffic ι ε) (later : List (Step ι ε)) : Prop where
  closed : (t.stepAll later).stream.closed = true
  accepts : t.acceptedBy later = []
  /-- What is taken off the stream and what is left there is what was left, in order. -/
  entries : t.removedBy later ++ (t.stepAll later).stream.buffer = t.stream.buffer
  /-- Every look ends a request, with what is to be said about the entries that are left. -/
  answers : (t.stepAll later).finished = t.finished ++ drain t.stream.buffer (t.looking later)
  /-- Who was on the stream or came has looked or is still to look. -/
  requests : ((t.looking later ++ (t.stepAll later).parties).map Party.request).Perm
    ((t.parties ++ newcomers later).map Party.request)
  nobodyWaits : (t.stepAll later).waiting = []
  /-- Once everybody has looked, every sender has failed. -/
  sendsFail : (t.stepAll later).isSettled = true → ∀ id entry,
    (id, .send entry) ∈ (t.parties ++ newcomers later).map Party.request →
      ∃ gone, ⟨id, .send entry, gone⟩ ∈ t.looking later ∧
        (id, if gone then .withdrawn else .denied .sendAfterClose) ∈
          drain t.stream.buffer (t.looking later)

theorem prompt_of_watchful (h : Watchful t) : Prompt t where
  close := closing?_close t
  sendFinal := closing?_sendFinal t
  answered _ _ hparty hask := replies_of_close hparty hask
  neverWaits party hparty hask := by
    have hheld := h party hparty
    rw [hask] at hheld
    exact hheld
  failed s hfailed := by
    rcases hfailed with ⟨answer, hanswer, hfails⟩ | ⟨d, hdenied⟩
    · exact stream_of_fails hanswer hfails
    · exact stream_of_closing?_denied hdenied

theorem shutdown_of_closed {capacity : Nat} (hconserved : Conserved capacity t)
    (hwatchful : Watchful t) (hclosed : t.stream.closed = true) (later : List (Step ι ε)) :
    Shutdown t later := by
  have hdrained := drained_stepAll hclosed later
  obtain ⟨haccepted, htaken⟩ := stepAll_account t later
  have hstill : (t.stepAll later).stream.closed = true := by rw [hdrained.stream, hclosed]
  have hwaiting : (t.stepAll later).waiting = [] := by
    rw [List.eq_nil_iff_forall_not_mem]
    intro party hparty
    have hunclosed := (hwatchful.stepAll later party hparty).unclosed
    exact Bool.false_ne_true (hunclosed.symm.trans hstill)
  have hnothing : t.accepted ++ t.acceptedBy later = t.accepted ++ [] := by
    rw [← haccepted, hdrained.accepted, List.append_nil]
  have haccepts : t.acceptedBy later = [] := List.append_cancel_left hnothing
  refine ⟨hstill, haccepts, ?_, hdrained.finished, hdrained.requests, hwaiting, ?_⟩
  · have hentries : t.taken ++ (t.removedBy later ++ (t.stepAll later).stream.buffer) =
        t.taken ++ t.stream.buffer := by
      calc t.taken ++ (t.removedBy later ++ (t.stepAll later).stream.buffer)
          = (t.stepAll later).taken ++ (t.stepAll later).stream.buffer := by
            rw [htaken, List.append_assoc]
        _ = (t.stepAll later).accepted := (hconserved.stepAll later).entries
        _ = t.accepted := hdrained.accepted
        _ = t.taken ++ t.stream.buffer := hconserved.entries.symm
    exact List.append_cancel_left hentries
  · intro hsettled id entry hrequest
    have hready : (t.stepAll later).ready = [] := List.isEmpty_iff.mp hsettled
    have hparties : (t.stepAll later).parties = [] := by rw [parties, hwaiting, hready]; rfl
    have hlooked := hdrained.requests.mem_iff.mpr hrequest
    rw [hparties, List.append_nil, List.mem_map] at hlooked
    obtain ⟨⟨id', ask, gone⟩, hparty, hsame⟩ := hlooked
    simp only [Party.request, Prod.mk.injEq] at hsame
    obtain ⟨rfl, rfl⟩ := hsame
    exact ⟨gone, hparty, mem_drain_of_send hparty⟩

/-- However the parties on a stream get to look, the stream is closed once and for all by the first
call that does so, which never waits; and from then on the entries that are left are handed out in
order, followed by the end, while every sender fails. -/
theorem closedOnce_and_shutdown {capacity : Int} {stream : Stream ε}
    (hstream : Stream.create capacity = .ok stream) (steps : List (Step ι ε)) :
    ClosedOnce ((onto stream).stepAll steps).stream.closed ((onto stream).closings steps) ∧
      ∀ earlier later, steps = earlier ++ later →
        Prompt ((onto stream).stepAll earlier) ∧
          (((onto stream).stepAll earlier).stream.closed = true →
            Shutdown ((onto stream).stepAll earlier) later) := by
  obtain ⟨rfl, _⟩ := create_eq_ok hstream
  have hconserved : Conserved capacity.toNat (onto ⟨capacity.toNat, [], false⟩ : Traffic ι ε) :=
    ⟨rfl, rfl, by constructor <;> simp [onto]⟩
  have hwatchful : Watchful (onto ⟨capacity.toNat, [], false⟩ : Traffic ι ε) :=
    fun _ hparty => absurd hparty List.not_mem_nil
  constructor
  · exact closedOnce_of_unclosed rfl steps
  · intro earlier later _
    constructor
    · exact prompt_of_watchful (hwatchful.stepAll earlier)
    · intro hclosed
      exact shutdown_of_closed (hconserved.stepAll earlier) (hwatchful.stepAll earlier) hclosed later

/-- A sender waits behind a full buffer when the stream is closed with a last entry.  It fails, as
does another call that closes the stream, and the two entries that were left are received before the
end. -/
theorem shutdown_when_crowded :
    ∃ earlier later : List (Step Nat Nat), Stream.create 1 = .ok (⟨1, [], false⟩ : Stream Nat) ∧
      ((onto ⟨1, [], false⟩ : Traffic Nat Nat).stepAll earlier).stream = ⟨1, [10, 30], true⟩ ∧
      ClosedOnce true [.ok (), .error .closeAfterClose] ∧
      Shutdown ((onto ⟨1, [], false⟩ : Traffic Nat Nat).stepAll earlier) later ∧
      ((onto ⟨1, [], false⟩ : Traffic Nat Nat).stepAll (earlier ++ later)).finished =
        [(0, .sent), (1, .denied .sendAfterClose), (2, .denied .closeAfterClose),
          (3, .received 10), (3, .received 30), (3, .ended)] := by
  have hstream : Stream.create 1 = .ok (⟨1, [], false⟩ : Stream Nat) := rfl
  obtain ⟨honce, hsplit⟩ := closedOnce_and_shutdown hstream
    ([.start 0 (.send 10), .serve 0, .start 1 (.send 20), .serve 0, .sendFinal 30, .start 2 .close,
      .serve 0, .serve 0, .start 3 .receive, .start 3 .receive, .start 3 .receive, .serve 0,
      .serve 0, .serve 0] : List (Step Nat Nat))
  obtain ⟨_, hshutdown⟩ := hsplit
    [.start 0 (.send 10), .serve 0, .start 1 (.send 20), .serve 0, .sendFinal 30]
    [.start 2 .close, .serve 0, .serve 0, .start 3 .receive, .start 3 .receive, .start 3 .receive,
      .serve 0, .serve 0, .serve 0] rfl
  exact ⟨_, _, hstream, rfl, honce, hshutdown rfl, rfl⟩

end Traffic

end Vigil.Stream
