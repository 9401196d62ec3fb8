import Vigil.Proofs.Watch.Ledger

/-!
# The ledger is kept

Every move of a run and everything that can happen around it keeps the invariant of a watch.  So it
holds at every moment of every watch, whatever its consumers do as long as they leave the sending to
the run.
-/

namespace Vigil.Watch

open Log (Note)
open Vigil.Stream (Ask Denial Reply Traffic)
open Vigil.Stream.Traffic (Bystanding Closing Concern OneSender)

variable {τ ω : Type}

/-! ### What consumers may do -/

/-- A consumer does not put entries on the stream. -/
def Action.OffersNothing : Action τ → Prop
  | .ask _ request => request.sends = false
  | _ => True

/-- A consumer only takes entries off the stream. -/
def Action.OnlyReceives : Action τ → Prop
  | .ask _ request => request.receives = true
  | _ => True

theorem Action.OnlyReceives.offersNothing {action : Action τ} (h : action.OnlyReceives) :
    action.OffersNothing := by
  cases action with
  | ask consumer request => cases request <;> first | rfl | cases h
  | _ => trivial

/-- What consumers may do.  If the run is to be alone in closing its stream, they do nothing but
receive. -/
def Tame (lone : Prop) (action : Action τ) : Prop :=
  action.OffersNothing ∧ (lone → action.OnlyReceives)

namespace World

/-! ### The last deeds of a run -/

theorem shut_traffic (w : World τ ω) : w.shut.traffic = w.traffic.step .close := by
  rw [shut, Traffic.step]
  split <;> simp_all

theorem shutWith_traffic (w : World τ ω) (event : Event τ) :
    (w.shutWith event).traffic = w.traffic.step (.sendFinal event) := by
  rw [shutWith, Traffic.step]
  split <;> simp_all

theorem shut_closing (w : World τ ω) : Closing [] w.traffic w.shut.traffic := by
  rw [shut_traffic]
  exact Stream.Traffic.closing_close _

theorem shutWith_closing (w : World τ ω) (event : Event τ) :
    Closing [event] w.traffic (w.shutWith event).traffic := by
  rw [shutWith_traffic]
  exact Stream.Traffic.closing_sendFinal _ _

/-- The instant at which a run breaks is noted. -/
theorem endedAt_breakDown (w : World τ ω) (how : Ending) :
    (w.breakDown how).endedAt = some w.now := by
  have hnow : w.shut.now = w.now := congrArg Books.now w.books_shut
  have hbooks : (w.breakDown how).books.endedAt = some w.shut.now := by
    rw [breakDown, books_finish]
  rw [← hnow]
  exact hbooks

theorem books_send {w : World τ ω} (halive : w.run.killed = false) (event : Event τ) :
    (w.send event).books =
      { w.books with
        traffic := w.traffic.start (.run w.run.sends) (.send event)
        run := { w.run with phase := .sending w.run.sends event, sends := w.run.sends + 1 } } := by
  simp only [send, halive, Bool.false_eq_true, if_false]
  rfl

theorem books_withAnswer (plan : Plan τ ω) (w : World τ ω) (number : Nat) :
    (w.withAnswer plan number).books =
      { w.books with
        readings := w.books.readings ++
          [⟨w.now, number, plan.strategy.read (plan.services number).answer⟩] } := by
  have hbooks : (((plan.services number).triggers.foldl trigger w).closeClient plan).books =
      w.books := by
    rw [books_closeClient, books_triggers]
  have hnow : (((plan.services number).triggers.foldl trigger w).closeClient plan).now = w.now :=
    congrArg Books.now hbooks
  rw [withAnswer, books_record_answered, hbooks, hnow]

theorem books_setRun (w : World τ ω) (run : Run τ) :
    ({ w with run := run } : World τ ω).books = { w.books with run := run } := rfl

theorem books_withQuery (plan : Plan τ ω) (w : World τ ω) :
    (w.withQuery plan).books =
      { w.books with
        run := { w.run with queries := w.run.queries + 1 }
        asked := w.books.asked + 1 } := by
  have hbooks : ((w.record (.query w.run.queries)).openClient plan).books =
      { w.books with asked := w.books.asked + 1 } := by
    rw [books_openClient, books_record_query]
  have hrun : ((w.record (.query w.run.queries)).openClient plan).run = w.run :=
    congrArg Books.run hbooks
  rw [withQuery, books_setRun, hbooks, hrun]

theorem books_record_paused (w : World τ ω) (delay : ω) :
    (w.record (.paused delay)).books = w.books :=
  w.books_record_other nofun nofun nofun

theorem books_withPause (w : World τ ω) (delay : ω) :
    (w.withPause delay).books =
      { w.books with run := { w.run with pauses := w.run.pauses + 1 } } := by
  rw [withPause, books_callHelpers, books_setRun, books_record_paused]
  rfl

theorem books_withBegin (w : World τ ω) :
    w.withBegin.books = { w.books with run := { w.run with started := w.now } } :=
  books_record_other _ nofun nofun nofun

theorem books_withStart (w : World τ ω) (line : Note) :
    (w.withStart line).books = { w.books with run := { w.run with started := w.now } } := by
  rw [withStart, books_note, books_withBegin]

theorem books_withGrace (w : World τ ω) (line : Note) :
    (w.withGrace line).books = { w.books with run := { w.run with graceDue := false } } := by
  rw [withGrace, books_setRun, books_note]

end World

section Deeds

variable {plan : Plan τ ω} {lone : Prop} {w : World τ ω} {b : Books τ}

/-- The invariant concerns nothing of the registers of a run but its phase, whether it was
cancelled, and its counts of sends and queries. -/
theorem Kept.withRun {run : Run τ} (h : Kept plan lone b)
    (hsends : b.run.sends ≤ run.sends) (hqueries : run.queries = b.run.queries) :
    Kept plan lone { b with run := run } :=
  ⟨fun ticket hticket => h.fresh ticket (Nat.le_trans hsends hticket), h.sender, h.undenied, h.numbered,
    hqueries.trans h.counted⟩

theorem Kept.withEnd {instant : Option τ} {phase : Phase τ} (h : Kept plan lone b) :
    Kept plan lone { b with run := { b.run with phase := phase }, endedAt := instant } :=
  ⟨h.fresh, h.sender, h.undenied, h.numbered, h.counted⟩

/-- What the readings of a run say stays true when the next result comes in. -/
theorem Kept.withReading {instant : τ} {number : Nat} (h : Kept plan lone b)
    (hnumber : number = b.readings.length) :
    Kept plan lone
      { b with
        readings := b.readings ++
          [⟨instant, number, plan.strategy.read (plan.services number).answer⟩] } where
  fresh := h.fresh
  sender := h.sender
  undenied := h.undenied
  numbered position r hr := by
    rcases Nat.lt_or_ge position b.readings.length with hold | hnew
    · rw [List.getElem?_append_left hold] at hr
      exact h.numbered position r hr
    · rw [List.getElem?_append_right hnew, List.getElem?_singleton] at hr
      split at hr
      · cases hr
        have hposition : position = number := by omega
        exact ⟨hposition.symm, by rw [hposition]⟩
      · cases hr
  counted := h.counted

/-- The offer of the run was answered. -/
theorem Kept.answered {t' : Traffic PartyId (Event τ)} {ticket : Nat} {reply : Reply (Event τ)}
    (h : Kept plan lone b) (hticket : ticket < b.run.sends)
    (hundenied : ∀ d, reply = .denied d → ¬lone)
    (hfinished : t'.finished = b.traffic.finished ++ [(.run ticket, reply)])
    (hsender : OneSender lone t') : Kept plan lone { b with traffic := t' } where
  fresh other hother := by
    have hne : PartyId.run ticket ≠ .run other := by
      intro heq
      have hother' : b.run.sends ≤ other := hother
      rw [PartyId.run.injEq] at heq
      omega
    exact (Stream.Traffic.replyTo?_append_of_ne hne hfinished).trans (h.fresh other hother)
  sender := hsender
  undenied hl other d hin := by
    rw [hfinished, List.mem_append, List.mem_singleton, Prod.mk.injEq] at hin
    rcases hin with hin | ⟨_, hreply⟩
    · exact h.undenied hl other d hin
    · exact hundenied d hreply.symm hl
  numbered := h.numbered
  counted := h.counted

variable [Clock τ]

/-- What follows from a result follows from its reading. -/
theorem outcome_of_observation (number : Nat) {result : Result} {notes : List Note}
    {event : Event τ} (hseen : w.observation plan result = some (notes, .ok event)) :
    (⟨w.now, number, result⟩ : Reading τ).outcome plan = some event := by
  cases result with
  | failure f => exact outcome_of_observeFailure w.now (Option.some.inj hseen)
  | payload v => exact outcome_of_observePayload (Option.some.inj hseen)
  | cancelled => cases hseen

theorem unreadable_of_observation {result : Result} {notes : List Note} {d : Defect}
    (hseen : w.observation plan result = some (notes, .error d)) :
    Unreadable plan.strategy w.now d result := by
  cases result with
  | failure f => exact unreadable_of_observeFailure w.now (Option.some.inj hseen)
  | payload v => exact unreadable_of_observePayload (Option.some.inj hseen)
  | cancelled => cases hseen

theorem isAbort_of_abort? {note : Note} {event : Event τ}
    (hreason : w.abort? plan = some (note, event)) : IsAbort plan event := by
  rw [World.abort?] at hreason
  cases hfired : w.cancellation.hasFired w.now with
  | true =>
      simp only [hfired, if_true, Option.some.injEq, Prod.mk.injEq] at hreason
      rw [← hreason.2]
      exact .cancelled _
  | false =>
      simp only [hfired, Bool.false_eq_true, if_false] at hreason
      split_ifs at hreason
      rw [Option.some.injEq, Prod.mk.injEq] at hreason
      rw [← hreason.2]
      exact .stopped

section Sending

variable {killed : Bool} {readings : List (Reading τ)} {t : Traffic PartyId (Event τ)}
variable {ticket : Nat} {event : Event τ}

theorem Sending.of_sent (h : Sending plan lone killed t readings ticket event)
    (hreply : t.replyTo? (.run ticket) = some .sent) :
    killed = false ∧ t.offers = [] ∧ (lone → t.stream.closed = false) ∧
      ∃ prior, t.accepted = prior ++ [event] ∧ Next plan readings prior event := by
  cases h with
  | sent offers _ alive unclosed accepted next =>
      exact ⟨alive, offers, unclosed, _, accepted, next⟩
  | pending _ reply _ _ => rw [hreply] at reply; cases reply
  | denied _ reply _ _ _ => rw [hreply] at reply; cases reply
  | withdrawn _ reply _ _ => rw [hreply] at reply; cases reply

/-- After an accepted event that does not end the watch, the stream is up to date. -/
theorem Sending.idle (h : Sending plan lone killed t readings ticket event)
    (hreply : t.replyTo? (.run ticket) = some .sent) (hgoing : event.isTerminal = false) :
    killed = false ∧ Idle plan lone t readings := by
  obtain ⟨halive, hoffers, hunclosed, prior, haccepted, hnext⟩ := h.of_sent hreply
  exact ⟨halive, hoffers, hunclosed, by rw [haccepted]; exact hnext.matches hgoing⟩

theorem Sending.of_denied {d : Denial} (h : Sending plan lone killed t readings ticket event)
    (hreply : t.replyTo? (.run ticket) = some (.denied d)) :
    killed = false ∧ t.offers = [] ∧ ¬lone ∧ Next plan readings t.accepted event := by
  cases h with
  | denied offers _ alive notLone next => exact ⟨alive, offers, notLone, next⟩
  | pending _ reply _ _ => rw [hreply] at reply; cases reply
  | sent _ reply _ _ _ _ => rw [hreply] at reply; cases reply
  | withdrawn _ reply _ _ => rw [hreply] at reply; cases reply

theorem Sending.of_withdrawn {reply : Reply (Event τ)}
    (h : Sending plan lone killed t readings ticket event)
    (hreply : t.replyTo? (.run ticket) = some reply) (hunsent : reply ≠ .sent)
    (hundenied : ∀ d, reply ≠ .denied d) :
    t.offers = [] ∧ (lone → t.stream.closed = false) ∧ Next plan readings t.accepted event := by
  cases h with
  | withdrawn offers _ unclosed next => exact ⟨offers, unclosed, next⟩
  | pending _ reply _ _ => rw [hreply] at reply; cases reply
  | sent _ reply _ _ _ _ => exact absurd (Option.some.inj (hreply.symm.trans reply)) hunsent
  | denied _ reply _ _ _ =>
      exact absurd (Option.some.inj (hreply.symm.trans reply)) (hundenied _)

theorem Sending.of_waiting (h : Sending plan lone killed t readings ticket event)
    (hreply : t.replyTo? (.run ticket) = none) :
    t.offers = [⟨.run ticket, .send event, killed⟩] ∧ (lone → t.stream.closed = false) ∧
      Next plan readings t.accepted event := by
  cases h with
  | pending offers _ unclosed next => exact ⟨offers, unclosed, next⟩
  | sent _ reply _ _ _ _ => rw [hreply] at reply; cases reply
  | denied _ reply _ _ _ => rw [hreply] at reply; cases reply
  | withdrawn _ reply _ _ => rw [hreply] at reply; cases reply

end Sending

variable [Wait ω] [Spans ω τ]

/-- The run ends: its stream is closed, with some last entries. -/
theorem Sound.finish {w' : World τ ω} {last : List (Event τ)} {how : Ending}
    (hbooks : w'.books = { b with traffic := w'.traffic })
    (hclosing : Closing last b.traffic w'.traffic)
    (hshut : ∀ stream : Stream (Event τ), stream.closed = true → Shut lone stream how)
    (hkept : Kept plan lone b) (hoffers : b.traffic.offers = [])
    (hover : Over plan lone b.now b.run.killed b.readings b.asked w'.traffic.accepted how) :
    Sound plan lone (.held : Point ω) (w'.finish how).books := by
  have hnow : w'.now = b.now := congrArg Books.now hbooks
  rw [World.books_finish, hbooks, hnow]
  refine ⟨(hkept.closing hclosing).withEnd, ?_, hshut _ hclosing.closed, b.now, rfl, hover⟩
  exact hclosing.offers_eq_nil hoffers

theorem Sound.breakDown {how : Ending} (hbooks : w.books = b) (hkept : Kept plan lone b)
    (hshut : ∀ stream : Stream (Event τ), stream.closed = true → Shut lone stream how)
    (hoffers : b.traffic.offers = [])
    (hover : Over plan lone b.now b.run.killed b.readings b.asked b.traffic.accepted how) :
    Sound plan lone (.held : Point ω) (w.breakDown how).books := by
  subst hbooks
  have hclosing := w.shut_closing
  refine .finish w.books_shut hclosing hshut hkept hoffers ?_
  have haccepted : w.shut.traffic.accepted = w.traffic.accepted := by
    rcases hclosing.accepted with h | ⟨_, h⟩
    · rwa [List.append_nil] at h
    · exact h
  rwa [haccepted]

/-- The run breaks. -/
theorem Sound.broken {d : Defect} (hbooks : w.books = b) (hkept : Kept plan lone b)
    (hoffers : b.traffic.offers = [])
    (hover : Over plan lone b.now b.run.killed b.readings b.asked b.traffic.accepted (.broken d)) :
    Sound plan lone (.held : Point ω) (w.breakDown (.broken d)).books :=
  .breakDown hbooks hkept (fun _ hclosed => hclosed) hoffers hover

/-- The run could not log its first line, and ends without a look at its stream. -/
theorem Sound.mute {d : Defect} (hbooks : w.books = b) (hkept : Kept plan lone b)
    (hfresh : Fresh lone b.traffic b.readings b.asked) (halive : b.run.killed = false)
    (hreason : Speechless plan b.now d) :
    Sound plan lone (.held : Point ω) (w.finish (.mute d)).books := by
  subst hbooks
  rw [World.books_finish]
  refine ⟨hkept.withEnd, hfresh.offers, hfresh.unclosed, _, rfl, ?_⟩
  exact .mute halive hreason ⟨hfresh.readings, hfresh.asked, hfresh.accepted⟩

/-- The task was cancelled, and the run leaves its last event behind unless a consumer closed the
stream. -/
theorem Sound.shutWith (hbooks : w.books = b) (hkept : Kept plan lone b)
    (hoffers : b.traffic.offers = []) (hunclosed : lone → b.traffic.stream.closed = false)
    (hcovers : Covers plan b.readings b.asked b.traffic.accepted) :
    Sound plan lone (.held : Point ω)
      ((w.shutWith (World.killedEvent plan)).finish .cancelled).books := by
  subst hbooks
  have hclosing := w.shutWith_closing (World.killedEvent plan)
  refine .finish (w.books_shutWith _) hclosing (fun _ hclosed => hclosed) hkept hoffers
    (.cancelled hcovers ?_)
  rcases hclosing.accepted with h | ⟨hclosed, h⟩
  · exact .inl h
  · exact .inr ⟨fun hl => Bool.false_ne_true ((hunclosed hl).symm.trans hclosed), h⟩

theorem Sound.withFarewell (hbooks : w.books = b) (hkept : Kept plan lone b)
    (hoffers : b.traffic.offers = []) (hunclosed : lone → b.traffic.stream.closed = false)
    (hcovers : Covers plan b.readings b.asked b.traffic.accepted) :
    Sound plan lone (.held : Point ω) (w.withFarewell plan).books :=
  .shutWith ((w.books_note _).trans hbooks) hkept hoffers hunclosed hcovers

theorem Sound.send {event : Event τ} (hbooks : w.books = b) (hkept : Kept plan lone b)
    (halive : b.run.killed = false) (hoffers : b.traffic.offers = [])
    (hunclosed : lone → b.traffic.stream.closed = false)
    (hnext : Next plan b.readings b.traffic.accepted event)
    (hfew : b.asked = b.readings.length) :
    Sound plan lone (.held : Point ω) (w.send event).books := by
  subst hbooks
  rw [World.books_send halive]
  have hfresh := hkept.fresh w.run.sends (Nat.le_refl _)
  have hoffered := Stream.Traffic.offers_start_run w.traffic w.run.sends (.send event)
  have hnone : w.traffic.offers = [] := hoffers
  have hkilled : w.run.killed = false := halive
  rw [hnone, List.nil_append, ← hkilled] at hoffered
  constructor
  · exact
      { fresh := fun ticket hticket => hkept.fresh ticket (Nat.le_of_succ_le hticket)
        sender := hkept.sender.start rfl nofun
        undenied := hkept.undenied
        numbered := hkept.numbered
        counted := hkept.counted }
  · exact ⟨.pending hoffered hfresh hunclosed hnext, hfew, Nat.lt_succ_self _⟩

end Deeds

/-! ### What cannot be logged -/

variable [Clock τ] [Wait ω] [Spans ω τ] {plan : Plan τ ω} {lone : Prop}

theorem held_of_phase {w : World τ ω} {phase : Phase τ} (hphase : w.run.phase = phase)
    (h : Stage plan lone w.books (.held : Point ω)) : Held plan lone w.books phase := by
  rw [← hphase]
  exact h

omit [Wait ω] [Spans ω τ] in
theorem undated_of_not_canRecord {w : World τ ω} (h : ¬ w.CanRecord plan) : Undated plan w.now :=
  Bool.eq_false_iff.mpr h

omit [Spans ω τ] in
/-- A first line without a text has a wait without a text. -/
theorem speechless_of_openingLine {w : World τ ω} {d : Defect}
    (h : w.openingLine plan = .error d ∨ ¬ w.CanRecord plan ∧ d = .tooLarge) :
    Speechless plan w.now d := by
  rcases h with hline | ⟨hundated, hd⟩
  · rw [World.openingLine] at hline
    cases hinitial : Wait.text plan.config.initialWait with
    | error d' =>
        rw [hinitial] at hline
        cases hline
        exact .unwritten List.mem_cons_self hinitial
    | ok initial =>
        cases hinterval : Wait.text plan.config.pollInterval with
        | error d' =>
            rw [hinitial, hinterval] at hline
            cases hline
            exact .unwritten (List.mem_cons_of_mem _ List.mem_cons_self) hinterval
        | ok interval =>
            rw [hinitial, hinterval] at hline
            cases hline
  · exact .undated (undated_of_not_canRecord hundated) hd

theorem Over.of_alive {instant : τ} {killed : Bool} {readings : List (Reading τ)} {asked : Nat}
    {events : List (Event τ)} {d : Defect} (halive : killed = false)
    (hcovers : Covers plan readings asked events) (hcause : Cause plan instant readings d) :
    Over plan lone instant killed readings asked events (.broken d) :=
  .broken (fun hkilled => absurd hkilled (by simp [halive])) hcovers hcause

theorem Over.of_undated {instant : τ} {killed : Bool} {readings : List (Reading τ)} {asked : Nat}
    {events : List (Event τ)} (hcovers : Covers plan readings asked events)
    (hundated : Undated plan instant) :
    Over plan lone instant killed readings asked events (.broken .tooLarge) :=
  .broken (fun _ => hundated) hcovers (.undated hundated rfl)

/-- A run that breaks because it cannot log something leaves a stream behind that covers all
readings or all but the newest. -/
theorem World.Choke.sound {w w' : World τ ω} {p : Point ω} {d : Defect}
    (h : World.Choke plan w p w' d) (hsound : Sound plan lone p w.books) :
    Sound plan lone (.held : Point ω) (w'.breakDown (.broken d)).books := by
  obtain ⟨hkept, hstage⟩ := hsound
  have hbooks := h.books
  cases h with
  | abort reason undated =>
      obtain ⟨_, hidle, hfew⟩ := hstage
      exact .broken hbooks hkept hidle.offers
        (.of_undated (.all hidle.behind (by omega)) (undated_of_not_canRecord undated))
  | outcome observed something undated =>
      obtain ⟨_, hoffers, _, ⟨earlier, hreadings, hbehind⟩, hfew⟩ := hstage
      exact .broken hbooks hkept hoffers
        (.of_undated (.allButNewest hreadings hbehind hfew) (undated_of_not_canRecord undated))
  | complaint phase reply failed undated =>
      obtain ⟨hsending, hfew, _⟩ := held_of_phase phase hstage
      obtain ⟨_, hidle⟩ := hsending.idle reply rfl
      exact .broken hbooks hkept hidle.offers
        (.of_undated (.all hidle.behind (by omega)) (undated_of_not_canRecord undated))
  | grace phase reply first cause _ =>
      obtain ⟨hsending, hfew, _⟩ := held_of_phase phase hstage
      obtain ⟨halive, hidle⟩ := hsending.idle reply rfl
      have hcovers : Covers plan w.books.readings w.books.asked w.books.traffic.accepted :=
        .all hidle.behind (by omega)
      rcases cause with hline | ⟨hundated, rfl⟩
      · exact .broken hbooks hkept hidle.offers (.unwritten halive hcovers hline)
      · exact .broken hbooks hkept hidle.offers
          (.of_undated hcovers (undated_of_not_canRecord hundated))
  | interrupt phase killed undated =>
      obtain ⟨hidle, hfew, _⟩ := held_of_phase phase hstage
      exact .broken hbooks hkept hidle.offers
        (.of_undated (.all hidle.behind (by omega)) (undated_of_not_canRecord undated))
  | revoke undated =>
      obtain ⟨_, hoffers, _, ⟨earlier, hreadings, hbehind⟩, hfew⟩ := hstage
      exact .broken hbooks hkept hoffers
        (.of_undated (.allButNewest hreadings hbehind hfew) (undated_of_not_canRecord undated))
  | retract phase answered unsent undenied undated =>
      obtain ⟨hsending, hfew, _⟩ := held_of_phase phase hstage
      obtain ⟨hoffers, _, hnext⟩ := hsending.of_withdrawn answered unsent undenied
      exact .broken hbooks hkept hoffers
        (.of_undated (hnext.covers hfew) (undated_of_not_canRecord undated))
  | leave phase tidy killed undated =>
      obtain ⟨hidle, hfew, _⟩ := held_of_phase phase hstage
      exact .broken hbooks hkept hidle.offers
        (.of_undated (.all hidle.behind (by omega)) (undated_of_not_canRecord undated))

/-! ### Every move -/

theorem sound_stable :
    World.Stable plan fun point w => Sound plan lone point w.books := by
  intro w p p' w' hmove h
  obtain ⟨hkept, hstage⟩ := h
  cases hmove with
  | skip phase killed =>
      have hfresh : Fresh lone _ _ _ := held_of_phase phase hstage
      obtain ⟨hidle, hfew⟩ : Idle plan _ _ _ ∧ _ := hfresh.idle
      exact .shutWith rfl hkept hidle.offers hidle.unclosed (.all hidle.behind (by omega))
  | start phase alive opening dated =>
      have hfresh : Fresh lone _ _ _ := held_of_phase phase hstage
      rw [World.books_withStart]
      exact ⟨hkept.withRun (Nat.le_refl _) rfl, alive, hfresh.idle⟩
  | mute phase alive cause =>
      have hfresh : Fresh lone _ _ _ := held_of_phase phase hstage
      have hreason := speechless_of_openingLine cause
      exact .mute w.books_withBegin (hkept.withRun (Nat.le_refl _) rfl) hfresh alive hreason
  | choke cause =>
      exact cause.sound ⟨hkept, hstage⟩
  | @abort note event reason dated =>
      obtain ⟨halive, hidle, hfew⟩ := hstage
      exact .send (w.books_note note) hkept halive hidle.offers hidle.unclosed
        (.aborted hidle.behind (isAbort_of_abort? reason)) hfew
  | ask noReason =>
      obtain ⟨halive, hidle, hfew⟩ := hstage
      have hqueries : w.run.queries = w.books.readings.length := hkept.counted.trans hfew
      rw [World.books_withQuery]
      constructor
      · exact
          { fresh := hkept.fresh
            sender := hkept.sender
            undenied := hkept.undenied
            numbered := hkept.numbered
            counted := congrArg (· + 1) hkept.counted }
      · exact ⟨halive, hidle, congrArg (· + 1) hfew, hqueries⟩
  | wait duration =>
      obtain ⟨_, hquerying⟩ := hstage
      rw [World.books_goTo]
      exact ⟨hkept.withRun (Nat.le_refl _) rfl, hquerying⟩
  | atOnce duration => exact ⟨hkept, hstage⟩
  | inTime phase alive reached =>
      have hheld := held_of_phase phase hstage
      exact ⟨hkept, alive, hheld⟩
  | interrupt phase killed dated =>
      obtain ⟨hidle, hfew, _⟩ := held_of_phase phase hstage
      exact .withFarewell (w.books_closeClient plan) hkept hidle.offers hidle.unclosed
        (.all hidle.behind (Nat.le_of_eq hfew))
  | @answer number =>
      obtain ⟨halive, hidle, hfew, rfl⟩ := hstage
      rw [World.books_withAnswer]
      have hcounted (r : Reading τ) : w.books.asked = (w.books.readings ++ [r]).length := by
        rw [List.length_append]
        exact hfew
      exact ⟨hkept.withReading rfl, halive, hidle.offers, hidle.unclosed,
        ⟨_, rfl, hidle.behind⟩, hcounted _⟩
  | revoke dated =>
      obtain ⟨_, hoffers, hunclosed, ⟨earlier, hreadings, hbehind⟩, hfew⟩ := hstage
      exact .withFarewell rfl hkept hoffers hunclosed (.allButNewest hreadings hbehind hfew)
  | @fail number result notes d outcome dated =>
      obtain ⟨halive, hoffers, _, ⟨earlier, hreadings, hbehind⟩, hfew⟩ := hstage
      have hreason := unreadable_of_observation outcome
      exact .broken (w.books_noteAll notes) hkept hoffers
        (.of_alive halive (.allButNewest hreadings hbehind hfew) (.unreadable hreadings hreason))
  | @publish number result notes event outcome dated =>
      obtain ⟨halive, hoffers, hunclosed, ⟨earlier, hreadings, hbehind⟩, hfew⟩ := hstage
      have hevent := outcome_of_observation number outcome
      exact .send (w.books_noteAll notes) hkept halive hoffers hunclosed
        (.observed hreadings hbehind hevent) hfew
  | finish phase reply terminal =>
      obtain ⟨hsending, hfew, _⟩ := held_of_phase phase hstage
      obtain ⟨halive, hoffers, _, prior, haccepted, hnext⟩ := hsending.of_sent reply
      exact .breakDown rfl hkept (fun _ hclosed => hclosed) hoffers
        (.finished halive haccepted terminal hnext hfew)
  | @grace ticket snapshot line phase reply first sleeping dated =>
      obtain ⟨hsending, hfew, _⟩ := held_of_phase phase hstage
      obtain ⟨halive, hidle⟩ := hsending.idle reply rfl
      rw [World.books_withGrace, World.books_withHook, World.run_withHook]
      exact ⟨hkept.withRun (Nat.le_refl _) rfl, halive, hidle, hfew, by simp⟩
  | @progress ticket snapshot phase reply later dated =>
      obtain ⟨hsending, hfew, _⟩ := held_of_phase phase hstage
      obtain ⟨halive, hidle⟩ := hsending.idle reply rfl
      rw [World.books_withHook]
      exact ⟨hkept, halive, hidle, hfew, by simp⟩
  | retry phase reply terminal noSnapshot =>
      obtain ⟨hsending, hfew, _⟩ := held_of_phase phase hstage
      obtain ⟨halive, hidle⟩ := hsending.idle reply terminal
      exact ⟨hkept, halive, hidle, hfew, by simp⟩
  | refuse phase reply =>
      obtain ⟨hsending, hfew, _⟩ := held_of_phase phase hstage
      obtain ⟨halive, hoffers, hlone, hnext⟩ := hsending.of_denied reply
      exact .breakDown rfl hkept (fun _ hclosed => hclosed) hoffers
        (.denied halive hlone (hnext.covers hfew))
  | retract phase answered unsent undenied dated =>
      obtain ⟨hsending, hfew, _⟩ := held_of_phase phase hstage
      obtain ⟨hoffers, hunclosed, hnext⟩ := hsending.of_withdrawn answered unsent undenied
      exact .withFarewell rfl hkept hoffers hunclosed (hnext.covers hfew)
  | sleep positive length =>
      obtain ⟨_, hidle, hfew, _⟩ := hstage
      rw [World.books_goTo, World.books_withPause]
      exact ⟨hkept.withRun (Nat.le_refl _) rfl, hidle, hfew⟩
  | overrun positive length =>
      obtain ⟨_, hidle, hfew, hdelay⟩ := hstage
      rw [World.books_goTo, World.books_dismissHelpers, World.books_withPause]
      refine ⟨hkept.withRun (Nat.le_refl _) rfl, hidle, hfew, fun d hd => ?_⟩
      exact ⟨(Option.some.inj hd).symm, _, hdelay, positive, length⟩
  | @hurry delay positive =>
      obtain ⟨halive, hidle, hfew, _⟩ := hstage
      rw [World.books_record_paused]
      exact ⟨hkept, halive, hidle, hfew⟩
  | wake phase reason =>
      have hheld := held_of_phase phase hstage
      rw [World.books_goTo, World.books_dismissHelpers]
      exact ⟨hkept.withRun (Nat.le_refl _) rfl, hheld.1, hheld.2, nofun⟩
  | leave phase tidy killed dated =>
      obtain ⟨hidle, hfew, _⟩ := held_of_phase phase hstage
      exact .withFarewell rfl hkept hidle.offers hidle.unclosed (.all hidle.behind (by omega))
  | collapse phase tidy alive =>
      obtain ⟨hidle, hfew, hlong⟩ := held_of_phase phase hstage
      exact .broken rfl hkept hidle.offers
        (.of_alive alive (.all hidle.behind (by omega)) (.overlong (hlong _ rfl)))
  | rise phase tidy alive =>
      have hheld := held_of_phase phase hstage
      exact ⟨hkept, alive, hheld.1, hheld.2.1⟩

/-! ### Everything around the run -/

section Around

variable {b : Books τ} {t' : Traffic PartyId (Event τ)} {ticket : Nat} {entry : Event τ}
variable {rest : List (Stream.Party PartyId (Event τ))} {gone : Bool}

/-- Only a run that is about to send has an offer on its stream. -/
theorem Held.sending_of_offer {phase : Phase τ} (h : Held plan lone b phase)
    (hoffers : b.traffic.offers.Perm (⟨.run ticket, .send entry, gone⟩ :: rest)) :
    phase = .sending ticket entry ∧ rest = [] ∧ b.run.killed = gone ∧
      b.traffic.replyTo? (.run ticket) = none ∧
      (lone → b.traffic.stream.closed = false) ∧
      Next plan b.readings b.traffic.accepted entry ∧ b.asked = b.readings.length ∧
      ticket < b.run.sends := by
  have hsome : b.traffic.offers ≠ [] := by
    intro hnone
    rw [hnone, List.nil_perm] at hoffers
    cases hoffers
  cases phase with
  | created => exact absurd h.offers hsome
  | querying number due => exact absurd h.1.offers hsome
  | sleeping pause due => exact absurd h.1.offers hsome
  | tidying pause defect => exact absurd h.1.offers hsome
  | ended how => exact absurd h.1 hsome
  | sending ticket' event =>
      obtain ⟨hsending, hfew, hticket⟩ := h
      cases hsending with
      | sent offers _ _ _ _ _ => exact absurd offers hsome
      | denied offers _ _ _ _ => exact absurd offers hsome
      | withdrawn offers _ _ _ => exact absurd offers hsome
      | pending offers reply unclosed next =>
          rw [offers, List.singleton_perm] at hoffers
          obtain ⟨hparty, rfl⟩ := List.cons.inj hoffers
          simp only [Stream.Party.mk.injEq, PartyId.run.injEq, Ask.send.injEq] at hparty
          obtain ⟨rfl, rfl, hgone⟩ := hparty
          exact ⟨rfl, rfl, hgone, reply, unclosed, next, hfew, hticket⟩

theorem Sound.serve (h : Sound plan lone (.held : Point ω) b) (position : Nat) :
    Sound plan lone (.held : Point ω) { b with traffic := b.traffic.serveAt position } := by
  obtain ⟨hkept, hheld⟩ := h
  have hsender := hkept.sender.serveAt position
  have hlone : lone → (b.traffic.serveAt position).stream.closed = b.traffic.stream.closed :=
    fun hl => hkept.sender.serveAt_closed hl position
  cases Stream.Traffic.serveAt_concern hkept.sender position with
  | bystanding others =>
      exact Sound.bystanding ⟨hkept, hheld⟩ others hsender hlone
        fun hclosed => Stream.Traffic.serveAt_of_closed hclosed position
  | sent offers left finished unclosed accepted =>
      obtain ⟨hphase, rfl, halive, hreply, _, hnext, hfew, hticket⟩ :=
        Held.sending_of_offer hheld offers
      constructor
      · exact hkept.answered hticket (fun _ hd => by cases hd) finished hsender
      · simp only [Stage, hphase]
        have hsent := Stream.Traffic.replyTo?_append_self hreply finished
        have hunclosed := fun hl => (hlone hl).trans unclosed
        exact ⟨.sent (List.perm_nil.mp left) hsent halive hunclosed accepted hnext, hfew, hticket⟩
  | @denied ticket entry rest d offers left finished closed accepted =>
      obtain ⟨hphase, rfl, halive, hreply, hunclosed, hnext, hfew, hticket⟩ :=
        Held.sending_of_offer hheld offers
      have hnotLone : ¬lone := fun hl =>
        Bool.false_ne_true ((hunclosed hl).symm.trans closed)
      constructor
      · exact hkept.answered hticket (fun _ _ => hnotLone) finished hsender
      · simp only [Stage, hphase]
        have hdenied := Stream.Traffic.replyTo?_append_self hreply finished
        rw [← accepted] at hnext
        exact ⟨.denied (List.perm_nil.mp left) hdenied halive hnotLone hnext, hfew, hticket⟩
  | withdrawn offers left finished accepted =>
      obtain ⟨hphase, rfl, _, hreply, hunclosed, hnext, hfew, hticket⟩ :=
        Held.sending_of_offer hheld offers
      constructor
      · exact hkept.answered hticket (fun _ hd => by cases hd) finished hsender
      · simp only [Stage, hphase]
        have hwithdrawn := Stream.Traffic.replyTo?_append_self hreply finished
        have hopen := fun hl => (hlone hl).trans (hunclosed hl)
        rw [← accepted] at hnext
        exact ⟨.withdrawn (List.perm_nil.mp left) hwithdrawn hopen hnext, hfew, hticket⟩

/-- A cancelled task finds out later; for now nothing but the mark changes. -/
theorem Kept.marked {phase : Phase τ} (h : Kept plan lone b) (hphase : b.run.phase = phase)
    (hheld : Held plan lone { b with run := { b.run with killed := true } } phase) :
    Sound plan lone (.held : Point ω) { b with run := { b.run with killed := true } } := by
  constructor
  · exact h.withRun (Nat.le_refl _) rfl
  · rw [← hphase] at hheld
    exact hheld

/-- The task of a run is cancelled where the run is held up. -/
theorem Sound.kill {w : World τ ω} (hheldUp : w.isHeldUp = true)
    (h : Sound plan lone (.held : Point ω) w.books) :
    Sound plan lone (.held : Point ω) w.kill.books := by
  obtain ⟨hkept, hstage⟩ := h
  rw [World.kill]
  cases hphase : w.run.phase with
  | ended how => exact ⟨hkept, hstage⟩
  | created => exact hkept.marked hphase (held_of_phase hphase hstage)
  | querying number due => exact hkept.marked hphase (held_of_phase hphase hstage)
  | sleeping pause due => exact hkept.marked hphase (held_of_phase hphase hstage)
  | tidying pause defect => exact hkept.marked hphase (held_of_phase hphase hstage)
  | sending ticket event =>
      obtain ⟨hsending, hfew, hticket⟩ := held_of_phase hphase hstage
      -- an answered run is not held up, so its offer still lies there
      have hwaits : w.traffic.replyTo? (.run ticket) = none := by
        simpa [World.isHeldUp, hphase] using hheldUp
      obtain ⟨hoffers, hunclosed, hnext⟩ := hsending.of_waiting hwaits
      have hwithdrawn : Kept plan lone { w.books with traffic := w.traffic.withdraw (.run ticket) } :=
        ⟨hkept.fresh, hkept.sender.withdraw _, hkept.undenied, hkept.numbered, hkept.counted⟩
      refine hwithdrawn.marked hphase ⟨.pending ?_ hwaits hunclosed hnext, hfew, hticket⟩
      exact Stream.Traffic.offers_withdraw_run hoffers

end Around

/-- The invariant of a watch is one. -/
theorem sound_invariant :
    World.Invariant plan (Tame lone) fun point w => Sound plan lone point w.books where
  moves := sound_stable
  helper _ _ before := before
  serve _ before := before.serve _
  passTime _ _ _ before :=
    ⟨⟨before.kept.fresh, before.kept.sender, before.kept.undenied, before.kept.numbered,
      before.kept.counted⟩, before.stage⟩
  trigger before := by rwa [World.books_trigger]
  kill heldUp before := before.kill heldUp
  ask may before :=
    before.bystanding (Stream.Traffic.bystanding_start _ _ _)
      (before.kept.sender.start may.1 fun hl _ => may.2 hl) (fun _ => rfl) id
  withdraw _ before :=
    before.bystanding (Stream.Traffic.bystanding_withdraw _ _) (before.kept.sender.withdraw _)
      (fun _ => rfl) id

/-- A watch starts with an empty ledger. -/
theorem sound_start {stream : Stream (Event τ)} (hopen : stream.closed = false) (now : τ)
    (cancellation : Cancellation τ) (stopped : Bool) :
    Sound plan lone .held (World.start now cancellation stopped stream : World τ ω).books := by
  constructor
  · exact
      { fresh := fun _ _ => rfl
        sender := fun party hparty => absurd hparty List.not_mem_nil
        undenied := fun _ _ _ hin => absurd hin List.not_mem_nil
        numbered := fun _ _ hr => by cases hr
        counted := rfl }
  · exact ⟨rfl, fun _ => hopen, rfl, rfl, rfl⟩

/-- At every moment of a watch whose consumers are tame, its stream is sound. -/
theorem sound_of_actAll? {stream : Stream (Event τ)} (hopen : stream.closed = false) {now : τ}
    {cancellation : Cancellation τ} {stopped : Bool} {actions : List (Action τ)} {w : World τ ω}
    (htame : ∀ action ∈ actions, Tame lone action)
    (hact : (World.start now cancellation stopped stream).actAll? plan actions = some w) :
    Sound plan lone .held w.books :=
  sound_invariant.actAll htame hact (sound_start hopen now cancellation stopped)

end Vigil.Watch
