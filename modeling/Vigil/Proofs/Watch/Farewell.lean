import Vigil.Proofs.Watch.Heed
import Vigil.Proofs.Watch.LastEvent
import Vigil.Proofs.Watch.Posting

/-!
# The last events of a run

Once a watch has to end, at most two events of its run still reach the stream: the outcome of the
newest query, if it has not come yet, and then an event that says that the watch was aborted.  Other
events of the stream may come from consumers; so it is told here which of them come from the run.
-/

namespace Vigil.Watch

open Log (Note)
open Vigil.Stream (Denial Reply Traffic)

variable {τ ω : Type}

/-! ### What the run says once it has to end -/

section Said

variable [Clock τ]

/-- The last events of a run: the outcome of its newest query, if that was still expected, and then
that it was aborted. -/
structure Farewell (plan : Plan τ ω) (expected : Event τ → Prop) (readings : List (Reading τ))
    (asked : Nat) (seen aborts : List (Event τ)) : Prop where
  one : seen.length ≤ 1
  newest : ∀ event ∈ seen, IsNewest plan readings asked event
  awaited : ∀ event ∈ seen, expected event
  once : aborts.length ≤ 1
  abort : ∀ event ∈ aborts, IsAbort plan event
  /-- Nothing follows an outcome that ends the watch. -/
  last : ∀ event ∈ seen, event.isTerminal = true → aborts = []

/-- The events are the last ones of a run. -/
def Said (plan : Plan τ ω) (expected : Event τ → Prop) (readings : List (Reading τ)) (asked : Nat)
    (events : List (Event τ)) : Prop :=
  ∃ seen aborts, events = seen ++ aborts ∧ Farewell plan expected readings asked seen aborts

/-- The run has said nothing, or nothing but the outcome of its newest query, and may go on. -/
structure Spoken (plan : Plan τ ω) (expected : Event τ → Prop) (readings : List (Reading τ))
    (asked : Nat) (events : List (Event τ)) : Prop where
  one : events.length ≤ 1
  newest : ∀ event ∈ events, IsNewest plan readings asked event
  awaited : ∀ event ∈ events, expected event
  going : ∀ event ∈ events, event.isTerminal = false

variable {plan : Plan τ ω} {expected : Event τ → Prop} {readings : List (Reading τ)} {asked : Nat}
variable {events : List (Event τ)} {event : Event τ}

theorem spoken_nil : Spoken plan expected readings asked [] :=
  ⟨Nat.zero_le 1, nofun, nofun, nofun⟩

theorem IsNewest.spoken (h : IsNewest plan readings asked event) (hexpected : expected event)
    (hgoing : event.isTerminal = false) : Spoken plan expected readings asked [event] :=
  ⟨Nat.le_refl 1, by simpa using h, by simpa using hexpected, by simpa using hgoing⟩

theorem IsNewest.said (h : IsNewest plan readings asked event) (hexpected : expected event) :
    Said plan expected readings asked [event] := by
  refine ⟨[event], [], rfl, Nat.le_refl 1, ?_, ?_, Nat.zero_le 1, nofun, fun _ _ _ => rfl⟩
  · simpa using h
  · simpa using hexpected

theorem Spoken.said (h : Spoken plan expected readings asked events) :
    Said plan expected readings asked events :=
  ⟨events, [], (List.append_nil _).symm, h.one, h.newest, h.awaited, Nat.zero_le 1, nofun,
    fun _ _ _ => rfl⟩

/-- A run that may go on may abort. -/
theorem Spoken.abort (h : Spoken plan expected readings asked events)
    (habort : IsAbort plan event) : Said plan expected readings asked (events ++ [event]) := by
  refine ⟨events, [event], rfl, h.one, h.newest, h.awaited, Nat.le_refl 1, ?_, ?_⟩
  · simpa using habort
  · intro e he hterminal
    rw [h.going e he] at hterminal
    cases hterminal

/-- What the run has said when it offers an event to the stream. -/
inductive Addressing (plan : Plan τ ω) (expected : Event τ → Prop) (b : Books τ)
    (words : List (Event τ)) (ticket : Nat) (event : Event τ) : Prop
  | first (unanswered : b.traffic.replyTo? (.run ticket) = none)
      (newest : IsNewest plan b.readings b.asked event) (awaited : expected event)
      (silent : words = [])
  | last (unanswered : b.traffic.replyTo? (.run ticket) = none) (abort : IsAbort plan event)
      (spoken : Spoken plan expected b.readings b.asked words)
  | sent (answered : b.traffic.replyTo? (.run ticket) = some .sent)
      (said : Said plan expected b.readings b.asked words)
      (going : event.isTerminal = false → Spoken plan expected b.readings b.asked words)
  | unsent {reply : Reply (Event τ)} (answered : b.traffic.replyTo? (.run ticket) = some reply)
      (unsent : reply ≠ .sent) (spoken : Spoken plan expected b.readings b.asked words)

/-- What the run has said since it has to end, while it is held up in a phase. -/
def PartingIn (plan : Plan τ ω) (expected : Event τ → Prop) (b : Books τ)
    (words : List (Event τ)) : Phase τ → Prop
  | .querying _ _ => (∀ event, expected event) ∧ words = []
  | .sending ticket event => Addressing plan expected b words ticket event
  | .ended _ => Said plan expected b.readings b.asked words
  | _ => Spoken plan expected b.readings b.asked words

/-- What the run has said since it has to end, at a point of the control flow. -/
def PartingAt (plan : Plan τ ω) (expected : Event τ → Prop) (b : Books τ)
    (words : List (Event τ)) : Point ω → Prop
  | .held => PartingIn plan expected b words b.run.phase
  | .deciding => Spoken plan expected b.readings b.asked words
  | .pausing _ => Spoken plan expected b.readings b.asked words
  | _ => (∀ event, expected event) ∧ words = []

theorem partingIn_of_phase {w : World τ ω} {phase : Phase τ} (hphase : w.run.phase = phase)
    (h : PartingAt plan expected w.books events (.held : Point ω)) :
    PartingIn plan expected w.books events phase := by
  rw [← hphase]
  exact h

section Addressing

variable {b : Books τ} {ticket : Nat}

/-- After an accepted event that does not end the watch, the run may go on. -/
theorem Addressing.spoken_of_sent (h : Addressing plan expected b events ticket event)
    (hreply : b.traffic.replyTo? (.run ticket) = some .sent) (hgoing : event.isTerminal = false) :
    Spoken plan expected b.readings b.asked events := by
  cases h with
  | sent _ _ going => exact going hgoing
  | first unanswered _ _ _ => rw [hreply] at unanswered; cases unanswered
  | last unanswered _ _ => rw [hreply] at unanswered; cases unanswered
  | unsent _ _ spoken => exact spoken

theorem Addressing.said_of_sent (h : Addressing plan expected b events ticket event)
    (hreply : b.traffic.replyTo? (.run ticket) = some .sent) :
    Said plan expected b.readings b.asked events := by
  cases h with
  | sent _ said _ => exact said
  | first unanswered _ _ _ => rw [hreply] at unanswered; cases unanswered
  | last unanswered _ _ => rw [hreply] at unanswered; cases unanswered
  | unsent _ _ spoken => exact spoken.said

theorem Addressing.spoken_of_unsent {reply : Reply (Event τ)}
    (h : Addressing plan expected b events ticket event)
    (hreply : b.traffic.replyTo? (.run ticket) = some reply) (hunsent : reply ≠ .sent) :
    Spoken plan expected b.readings b.asked events := by
  cases h with
  | unsent _ _ spoken => exact spoken
  | first unanswered _ _ _ => rw [hreply] at unanswered; cases unanswered
  | last unanswered _ _ => rw [hreply] at unanswered; cases unanswered
  | sent answered _ _ => exact absurd (Option.some.inj (hreply.symm.trans answered)) hunsent

/-- Whatever the stream answers to an event that waited, but that it took it: the run has said no
more. -/
theorem Addressing.spoken_of_waiting (h : Addressing plan expected b events ticket event)
    (hnone : b.traffic.replyTo? (.run ticket) = none) :
    Spoken plan expected b.readings b.asked events := by
  cases h with
  | first _ _ _ silent =>
      rw [silent]
      exact spoken_nil
  | last _ _ spoken => exact spoken
  | sent answered _ _ => rw [hnone] at answered; cases answered
  | unsent _ _ spoken => exact spoken

/-- An event that waited was taken. -/
theorem Addressing.taken {b' : Books τ} (h : Addressing plan expected b events ticket event)
    (hnone : b.traffic.replyTo? (.run ticket) = none)
    (hsent : b'.traffic.replyTo? (.run ticket) = some .sent) (hreadings : b'.readings = b.readings)
    (hasked : b'.asked = b.asked) :
    Addressing plan expected b' (events ++ [event]) ticket event := by
  cases h with
  | first _ newest awaited silent =>
      subst silent
      rw [← hreadings, ← hasked] at newest
      exact .sent hsent (newest.said awaited) (newest.spoken awaited)
  | last _ abort spoken =>
      rw [← hreadings, ← hasked] at spoken
      refine .sent hsent (spoken.abort abort) fun hgoing => ?_
      rw [abort.isTerminal] at hgoing
      cases hgoing
  | sent answered _ _ => rw [hnone] at answered; cases answered
  | unsent answered _ _ => rw [hnone] at answered; cases answered

end Addressing

/-- What the run has said depends on its readings and on the answers to its offers alone. -/
theorem PartingIn.frame {b : Books τ} {phase : Phase τ}
    (h : PartingIn plan expected b events phase) (b' : Books τ)
    (hreadings : b'.readings = b.readings)
    (hasked : b'.asked = b.asked)
    (hreply : ∀ ticket,
      b'.traffic.replyTo? (.run ticket) = b.traffic.replyTo? (.run ticket)) :
    PartingIn plan expected b' events phase := by
  cases phase with
  | querying number due => exact h
  | sending ticket event =>
      have haddressing : Addressing plan expected b events ticket event := h
      have hgoal : Addressing plan expected b' events ticket event := by
        cases haddressing with
        | first unanswered newest awaited silent =>
            exact .first ((hreply ticket).trans unanswered) (by rwa [hreadings, hasked]) awaited
              silent
        | last unanswered abort spoken =>
            exact .last ((hreply ticket).trans unanswered) abort (by rwa [hreadings, hasked])
        | sent answered said going =>
            exact .sent ((hreply ticket).trans answered) (by rwa [hreadings, hasked])
              (by rwa [hreadings, hasked])
        | unsent answered unsent spoken =>
            exact .unsent ((hreply ticket).trans answered) unsent (by rwa [hreadings, hasked])
      exact hgoal
  | created => simpa only [PartingIn, hreadings, hasked] using h
  | sleeping pause due => simpa only [PartingIn, hreadings, hasked] using h
  | tidying pause defect => simpa only [PartingIn, hreadings, hasked] using h
  | ended how => simpa only [PartingIn, hreadings, hasked] using h

end Said

section Parting

variable [Clock τ] {plan : Plan τ ω} {expected : Event τ → Prop} {events : List (Event τ)}

/-- A cancelled task that has to end says so, unless the stream was closed. -/
theorem parting_shutWith {w w₁ : World τ ω} (hbooks : w₁.books = w.books)
    (hspoken : Spoken plan expected w.readings w.queryTimes.length events) :
    ∃ new, ((w₁.shutWith (World.killedEvent plan)).finish .cancelled).traffic.accepted =
        w.traffic.accepted ++ new ∧
      PartingAt plan expected ((w₁.shutWith (World.killedEvent plan)).finish .cancelled).books
        (events ++ new) (.held : Point ω) := by
  obtain ⟨new, hnew, haccepted⟩ := w₁.shutWith_accepted (World.killedEvent plan)
  have htraffic : w₁.traffic = w.traffic := congrArg Books.traffic hbooks
  refine ⟨new, by rw [← htraffic]; exact haccepted, ?_⟩
  rw [World.books_finish, World.books_shutWith, hbooks]
  rcases hnew with rfl | rfl
  · rw [List.append_nil]
    exact hspoken.said
  · exact hspoken.abort (.cancelled false)

theorem parting_withFarewell {w w₁ : World τ ω} (hbooks : w₁.books = w.books)
    (hspoken : Spoken plan expected w.readings w.queryTimes.length events) :
    ∃ new, (w₁.withFarewell plan).traffic.accepted = w.traffic.accepted ++ new ∧
      PartingAt plan expected (w₁.withFarewell plan).books (events ++ new) (.held : Point ω) :=
  parting_shutWith ((w₁.books_note _).trans hbooks) hspoken

theorem parting_breakDown {w w₁ : World τ ω} {how : Ending} (hbooks : w₁.books = w.books)
    (hsaid : Said plan expected w.readings w.queryTimes.length events) :
    ∃ new, (w₁.breakDown how).traffic.accepted = w.traffic.accepted ++ new ∧
      PartingAt plan expected (w₁.breakDown how).books (events ++ new) (.held : Point ω) := by
  have htraffic : w₁.traffic = w.traffic := congrArg Books.traffic hbooks
  refine ⟨[], by rw [← htraffic, List.append_nil]; exact w₁.shut_accepted, ?_⟩
  rw [World.breakDown, World.books_finish, World.books_shut, hbooks, List.append_nil]
  exact hsaid

/-- The run has begun to say something. -/
theorem parting_send {w w₁ : World τ ω} {event : Event τ} (hbooks : w₁.books = w.books)
    (hfresh : w.traffic.replyTo? (.run w.run.sends) = none)
    (hevent : (IsNewest plan w.readings w.queryTimes.length event ∧ expected event) ∧ events = [] ∨
      IsAbort plan event ∧ Spoken plan expected w.readings w.queryTimes.length events) :
    ∃ new, (w₁.send event).traffic.accepted = w.traffic.accepted ++ new ∧
      PartingAt plan expected (w₁.send event).books (events ++ new) (.held : Point ω) := by
  have htraffic : w₁.traffic = w.traffic := congrArg Books.traffic hbooks
  have hrun : w₁.run = w.run := congrArg Books.run hbooks
  have hreadings : w₁.readings = w.readings := congrArg Books.readings hbooks
  have hasked : w₁.queryTimes.length = w.queryTimes.length := congrArg Books.asked hbooks
  have hfinished : (w₁.send event).traffic.finished = w.traffic.finished := by
    rw [w₁.send_finished, htraffic]
  have hnone : (w₁.send event).traffic.replyTo? (.run w₁.run.sends) = none := by
    rw [Stream.Traffic.replyTo?_of_finished_eq hfinished, hrun, hfresh]
  refine ⟨[], by rw [w₁.send_accepted, htraffic, List.append_nil], ?_⟩
  rw [List.append_nil]
  have haddressing : Addressing plan expected (w₁.send event).books events w₁.run.sends event := by
    rw [← hreadings, ← hasked] at hevent
    rcases hevent with ⟨⟨hnewest, hexpected⟩, hsilent⟩ | ⟨habort, hspoken⟩
    · exact .first hnone hnewest hexpected hsilent
    · exact .last hnone habort hspoken
  exact haddressing

variable [Wait ω] [Spans ω τ]

omit [Spans ω τ] in
/-- What a run has said that breaks because it cannot log something. -/
theorem World.Choke.said {w w' : World τ ω} {p : Point ω} {d : Defect}
    (cause : World.Choke plan w p w' d) (hparting : PartingAt plan expected w.books events p) :
    Said plan expected w.books.readings w.books.asked events := by
  cases cause with
  | abort _ _ => exact Spoken.said hparting
  | outcome _ _ _ =>
      obtain ⟨_, rfl⟩ := hparting
      exact spoken_nil.said
  | complaint phase reply _ _ =>
      exact Addressing.said_of_sent (partingIn_of_phase phase hparting) reply
  | grace phase reply _ _ _ =>
      exact Addressing.said_of_sent (partingIn_of_phase phase hparting) reply
  | interrupt phase _ _ =>
      obtain ⟨_, rfl⟩ := partingIn_of_phase phase hparting
      exact spoken_nil.said
  | revoke _ =>
      obtain ⟨_, rfl⟩ := hparting
      exact spoken_nil.said
  | retract phase answered unsent _ _ =>
      have haddressing := partingIn_of_phase phase hparting
      exact (Addressing.spoken_of_unsent haddressing answered unsent).said
  | leave phase _ _ _ => exact Spoken.said (partingIn_of_phase phase hparting)

/-- Each move of a run that has to end lets it say no more than is due. -/
theorem World.Move.parting {w w' : World τ ω} {p p' : Point ω} (h : World.Move plan w p p' w')
    (hmust : w.MustEnd) (hposting : Posting plan p w.books)
    (hparting : PartingAt plan expected w.books events p) :
    ∃ new, w'.traffic.accepted = w.traffic.accepted ++ new ∧
      PartingAt plan expected w'.books (events ++ new) p' := by
  have hfresh : w.traffic.replyTo? (.run w.run.sends) = none := hposting.fresh _ (Nat.le_refl _)
  have hnothing {w₁ : World τ ω} (htraffic : w₁.books.traffic = w.books.traffic)
      (hpart : PartingAt plan expected w₁.books events p') :
      ∃ new, w₁.traffic.accepted = w.traffic.accepted ++ new ∧
        PartingAt plan expected w₁.books (events ++ new) p' := by
    refine ⟨[], ?_, by rwa [List.append_nil]⟩
    rw [List.append_nil]
    exact congrArg Traffic.accepted htraffic
  cases h with
  | skip phase killed => exact parting_shutWith rfl (partingIn_of_phase phase hparting)
  | start phase alive opening dated =>
      have hspoken : Spoken plan expected w.books.readings w.books.asked events :=
        partingIn_of_phase phase hparting
      refine hnothing (by rw [World.books_withStart]) ?_
      rw [World.books_withStart]
      exact hspoken
  | mute phase alive cause =>
      have hspoken : Spoken plan expected w.books.readings w.books.asked events :=
        partingIn_of_phase phase hparting
      refine hnothing (by rw [World.books_finish, World.books_withBegin]) ?_
      rw [World.books_finish, World.books_withBegin]
      exact hspoken.said
  | choke cause => exact parting_breakDown cause.books (cause.said hparting)
  | @abort note event reason dated =>
      exact parting_send (w.books_note note) hfresh (.inr ⟨isAbort_of_abort? reason, hparting⟩)
  | ask noReason => exact absurd hmust (World.abort?_eq_none.mp noReason)
  | wait duration => exact hnothing rfl hparting
  | atOnce duration => exact hnothing rfl hparting
  | inTime phase alive reached => exact hnothing rfl (partingIn_of_phase phase hparting)
  | interrupt phase killed dated =>
      obtain ⟨_, rfl⟩ := partingIn_of_phase phase hparting
      exact parting_withFarewell (w.books_closeClient plan) spoken_nil
  | answer =>
      refine hnothing (by rw [World.books_withAnswer]) ?_
      rw [World.books_withAnswer]
      exact hparting
  | revoke dated =>
      obtain ⟨_, rfl⟩ := hparting
      exact parting_withFarewell rfl spoken_nil
  | @fail number result notes d outcome dated =>
      obtain ⟨_, rfl⟩ := hparting
      exact parting_breakDown (w.books_noteAll notes) spoken_nil.said
  | @publish number result notes event outcome dated =>
      obtain ⟨_, hnumber, hnewest⟩ := hposting.stage
      obtain ⟨hexpected, hsilent⟩ := hparting
      have hevent := outcome_of_observation number outcome
      exact parting_send (w.books_noteAll notes) hfresh
        (.inl ⟨⟨⟨_, hnewest, hnumber, hevent⟩, hexpected event⟩, hsilent⟩)
  | finish phase reply terminal =>
      exact parting_breakDown rfl
        (Addressing.said_of_sent (partingIn_of_phase phase hparting) reply)
  | grace phase reply first sleeping dated =>
      have hspoken := Addressing.spoken_of_sent (partingIn_of_phase phase hparting) reply rfl
      refine hnothing (by rw [World.books_withGrace, World.books_withHook]) ?_
      rw [World.books_withGrace, World.books_withHook]
      exact hspoken
  | progress phase reply later dated =>
      have hspoken := Addressing.spoken_of_sent (partingIn_of_phase phase hparting) reply rfl
      refine hnothing (by rw [World.books_withHook]) ?_
      rw [World.books_withHook]
      exact hspoken
  | retry phase reply terminal noSnapshot =>
      exact hnothing rfl
        (Addressing.spoken_of_sent (partingIn_of_phase phase hparting) reply terminal)
  | refuse phase reply =>
      have hspoken := Addressing.spoken_of_unsent (partingIn_of_phase phase hparting) reply nofun
      exact parting_breakDown rfl hspoken.said
  | retract phase answered unsent undenied dated =>
      exact parting_withFarewell rfl
        (Addressing.spoken_of_unsent (partingIn_of_phase phase hparting) answered unsent)
  | sleep positive length =>
      refine hnothing (by rw [World.books_goTo, World.books_withPause]) ?_
      rw [World.books_goTo, World.books_withPause]
      exact hparting
  | overrun positive length =>
      refine hnothing
        (by rw [World.books_goTo, World.books_dismissHelpers, World.books_withPause]) ?_
      rw [World.books_goTo, World.books_dismissHelpers, World.books_withPause]
      exact hparting
  | hurry positive =>
      refine hnothing (by rw [World.books_record_paused]) ?_
      rw [World.books_record_paused]
      exact hparting
  | wake phase reason =>
      have hspoken : Spoken plan expected w.books.readings w.books.asked events :=
        partingIn_of_phase phase hparting
      exact hnothing rfl hspoken
  | leave phase tidy killed dated =>
      exact parting_withFarewell rfl (partingIn_of_phase phase hparting)
  | collapse phase tidy alive =>
      have hspoken : Spoken plan expected w.books.readings w.books.asked events :=
        partingIn_of_phase phase hparting
      exact parting_breakDown rfl hspoken.said
  | rise phase tidy alive => exact hnothing rfl (partingIn_of_phase phase hparting)

/-- A step of a run that has to end. -/
theorem parting_stepRun {w : World τ ω} (hgo : w.runCanGo = true) (hmust : w.MustEnd)
    (hposting : Posting plan .held w.books)
    (hparting : PartingAt plan expected w.books events (.held : Point ω)) :
    ∃ new, (w.stepRun plan).traffic.accepted = w.traffic.accepted ++ new ∧
      PartingAt plan expected (w.stepRun plan).books (events ++ new) (.held : Point ω) := by
  have hstable : World.Stable plan fun point w₁ => w₁.MustEnd ∧ Posting plan point w₁.books ∧
      ∃ new, w₁.traffic.accepted = w.traffic.accepted ++ new ∧
        PartingAt plan expected w₁.books (events ++ new) point := by
    rintro w₁ p p' w₂ hmove ⟨hmust₁, hposting₁, new, haccepted, hparting₁⟩
    obtain ⟨more, hmore, hparting₂⟩ := hmove.parting hmust₁ hposting₁ hparting₁
    have hmust₂ : w₂.MustEnd := by
      rcases hmove.advance with hadvance | ⟨hgoing, _⟩
      · exact hadvance.mustEnd hmust₁
      · exact absurd hmust₁ hgoing
    refine ⟨hmust₂, posting_stable hmove hposting₁, new ++ more, ?_, ?_⟩
    · rw [hmore, haccepted, List.append_assoc]
    · rwa [← List.append_assoc]
  have hstart : w.MustEnd ∧ Posting plan .held w.books ∧
      ∃ new, w.traffic.accepted = w.traffic.accepted ++ new ∧
        PartingAt plan expected w.books (events ++ new) (.held : Point ω) :=
    ⟨hmust, hposting, [], (List.append_nil _).symm, by rwa [List.append_nil]⟩
  exact (hstable.stepRun hgo hstart).2.2

/-- A move puts nothing on the stream but the last event of a cancelled task. -/
theorem World.Move.accepted {w w' : World τ ω} {p p' : Point ω} (h : World.Move plan w p p' w') :
    w'.traffic.accepted = w.traffic.accepted ∨
      p' = .held ∧ w'.traffic.accepted = w.traffic.accepted ++ [World.killedEvent plan] ∧
        w'.run.phase = .ended .cancelled := by
  have hstill {w₁ : World τ ω} (htraffic : w₁.books.traffic = w.books.traffic) :
      w₁.traffic.accepted = w.traffic.accepted := congrArg Traffic.accepted htraffic
  have hshut (w₁ : World τ ω) (hbooks : w₁.books = w.books) :
      w₁.shut.traffic.accepted = w.traffic.accepted :=
    w₁.shut_accepted.trans (hstill (congrArg Books.traffic hbooks))
  have hsent (w₁ : World τ ω) (event : Event τ) (hbooks : w₁.books = w.books) :
      (w₁.send event).traffic.accepted = w.traffic.accepted :=
    (w₁.send_accepted event).trans (hstill (congrArg Books.traffic hbooks))
  have hkilled (w₁ : World τ ω) (hbooks : w₁.books = w.books) :
      (w₁.shutWith (World.killedEvent plan)).traffic.accepted = w.traffic.accepted ∨
        (w₁.shutWith (World.killedEvent plan)).traffic.accepted =
          w.traffic.accepted ++ [World.killedEvent plan] := by
    obtain ⟨new, hnew, haccepted⟩ := w₁.shutWith_accepted (World.killedEvent plan)
    rw [haccepted, hstill (congrArg Books.traffic hbooks)]
    rcases hnew with rfl | rfl
    · exact .inl (List.append_nil _)
    · exact .inr rfl
  cases h with
  | skip phase killed => exact (hkilled w rfl).imp id fun hnew => ⟨rfl, hnew, rfl⟩
  | start phase alive opening dated => exact .inl (hstill (by rw [books_withStart]))
  | mute phase alive cause => exact .inl (hstill (by rw [books_finish, books_withBegin]))
  | choke cause => exact .inl (hshut _ cause.books)
  | @abort note event reason dated => exact .inl (hsent _ event (w.books_note note))
  | ask noReason => exact .inl (hstill (by rw [books_withQuery]))
  | wait duration => exact .inl rfl
  | atOnce duration => exact .inl rfl
  | inTime phase alive reached => exact .inl rfl
  | interrupt phase killed dated =>
      exact (hkilled _ ((books_note _ _).trans (w.books_closeClient plan))).imp id
        fun hnew => ⟨rfl, hnew, rfl⟩
  | answer => exact .inl (hstill (by rw [books_withAnswer]))
  | revoke dated => exact (hkilled _ (w.books_note _)).imp id fun hnew => ⟨rfl, hnew, rfl⟩
  | @fail number result notes d outcome dated => exact .inl (hshut _ (w.books_noteAll notes))
  | @publish number result notes event outcome dated =>
      exact .inl (hsent _ event (w.books_noteAll notes))
  | finish phase reply terminal => exact .inl (hshut w rfl)
  | grace phase reply first sleeping dated =>
      exact .inl (hstill (by rw [books_withGrace, books_withHook]))
  | progress phase reply later dated => exact .inl (hstill (by rw [books_withHook]))
  | retry phase reply terminal noSnapshot => exact .inl rfl
  | refuse phase reply => exact .inl (hshut w rfl)
  | retract phase answered unsent undenied dated =>
      exact (hkilled _ (w.books_note _)).imp id fun hnew => ⟨rfl, hnew, rfl⟩
  | sleep positive length => exact .inl (hstill (by rw [books_goTo, books_withPause]))
  | overrun positive length =>
      exact .inl (hstill (by rw [books_goTo, books_dismissHelpers, books_withPause]))
  | hurry positive => exact .inl rfl
  | wake phase reason => exact .inl rfl
  | leave phase tidy killed dated =>
      exact (hkilled _ (w.books_note _)).imp id fun hnew => ⟨rfl, hnew, rfl⟩
  | collapse phase tidy alive => exact .inl (hshut w rfl)
  | rise phase tidy alive => exact .inl rfl

/-- Nor does a whole step of the run. -/
theorem World.stepRun_accepted (plan : Plan τ ω) {w : World τ ω} (hgo : w.runCanGo = true) :
    (w.stepRun plan).traffic.accepted = w.traffic.accepted ∨
      (w.stepRun plan).traffic.accepted = w.traffic.accepted ++ [World.killedEvent plan] ∧
        (w.stepRun plan).run.phase = .ended .cancelled := by
  have hstable : World.Stable plan fun point w₁ => w₁.traffic.accepted = w.traffic.accepted ∨
      point = .held ∧ w₁.traffic.accepted = w.traffic.accepted ++ [World.killedEvent plan] ∧
        w₁.run.phase = .ended .cancelled := by
    rintro w₁ p p' w₂ hmove (hstill | ⟨rfl, _, hphase⟩)
    · rw [← hstill]
      exact hmove.accepted
    · exact absurd hphase (hmove.phase_ne_ended _)
  exact (hstable.stepRun hgo (.inl rfl)).imp id fun hended => hended.2

end Parting

/-! ### The events that come from the run -/

namespace World

section FromRun

variable [Clock τ] [Wait ω] [Spans ω τ]

/-- What an action puts on the stream for the run, when it leads to a state. -/
def saidBy (w w' : World τ ω) : Action τ → List (Event τ)
  | .run => w'.traffic.accepted.drop w.traffic.accepted.length
  | .serve position =>
      if w.traffic.servesRun position then w'.traffic.accepted.drop w.traffic.accepted.length
      else []
  | _ => []

omit [Clock τ] [Wait ω] [Spans ω τ] in
theorem saidBy_of_isAside {w w' : World τ ω} {action : Action τ} (haside : action.isAside = true) :
    w.saidBy w' action = [] := by
  cases action with
  | run => cases haside
  | serve _ => cases haside
  | _ => rfl

/-- What the stream accepts from the run in the course of some actions. -/
def fromRun (plan : Plan τ ω) (w : World τ ω) : List (Action τ) → List (Event τ)
  | [] => []
  | action :: actions =>
      match w.act? plan action with
      | some w' => w.saidBy w' action ++ w'.fromRun plan actions
      | none => []

end FromRun

end World

/-- The event may still come from the run without another query: the newest query is on its way, or
its outcome waits for the stream. -/
inductive World.Awaits (w : World τ ω) (event : Event τ) : Prop
  | inFlight {number : Nat} {due : τ} (phase : w.run.phase = .querying number due)
  | waiting {ticket : Nat} (phase : w.run.phase = .sending ticket event)
      (unanswered : w.traffic.replyTo? (.run ticket) = none)

section Leaving

variable [Clock τ] {plan : Plan τ ω} {expected : Event τ → Prop} {events : List (Event τ)}
variable {w w' : World τ ω}

/-- What somebody's look at the stream means for the event that the run has on its way there, and
what it puts on the stream for the run. -/
inductive World.Glance (w : World τ ω) (position : Nat) : Prop
  | nothing (replies : ∀ ticket, (w.traffic.serveAt position).replyTo? (.run ticket) =
        w.traffic.replyTo? (.run ticket))
      (silent : w.saidBy { w with traffic := w.traffic.serveAt position } (.serve position) = [])
  | sent {ticket : Nat} {event : Event τ} (phase : w.run.phase = .sending ticket event)
      (unanswered : w.traffic.replyTo? (.run ticket) = none)
      (answered : (w.traffic.serveAt position).replyTo? (.run ticket) = some .sent)
      (said : w.saidBy { w with traffic := w.traffic.serveAt position } (.serve position) = [event])
  | denied {ticket : Nat} {event : Event τ} {d : Denial}
      (phase : w.run.phase = .sending ticket event)
      (unanswered : w.traffic.replyTo? (.run ticket) = none)
      (answered : (w.traffic.serveAt position).replyTo? (.run ticket) = some (.denied d))
      (silent : w.saidBy { w with traffic := w.traffic.serveAt position } (.serve position) = [])
  | withdrawn {ticket : Nat} {event : Event τ} (phase : w.run.phase = .sending ticket event)
      (unanswered : w.traffic.replyTo? (.run ticket) = none)
      (answered : (w.traffic.serveAt position).replyTo? (.run ticket) = some .withdrawn)
      (killed : w.run.killed = true)
      (silent : w.saidBy { w with traffic := w.traffic.serveAt position } (.serve position) = [])

/-- A look at the stream answers the event that the run has there, or it is nothing to the run. -/
theorem Posting.glance (h : Posting plan (.held : Point ω) w.books) (position : Nat) :
    w.Glance position := by
  have hposted : PostedIn plan w.books w.run.phase := h.stage
  rcases Stream.Traffic.serveAt_turn hposted.sends position with
    ⟨hserves, hothers⟩ | ⟨hserves, hconcern⟩
  · have hserves' : w.traffic.servesRun position = false := hserves
    exact .nothing hothers.replyTo? (by simp [World.saidBy, hserves'])
  · have hserves' : w.traffic.servesRun position = true := hserves
    have hsaid {events : List (Event τ)}
        (haccepted : (w.traffic.serveAt position).accepted = w.traffic.accepted ++ events) :
        w.saidBy { w with traffic := w.traffic.serveAt position } (.serve position) = events := by
      rw [World.saidBy, if_pos hserves', haccepted, List.drop_left]
    have hsilent (haccepted : (w.traffic.serveAt position).accepted = w.traffic.accepted) :
        w.saidBy { w with traffic := w.traffic.serveAt position } (.serve position) = [] :=
      hsaid (haccepted.trans (List.append_nil _).symm)
    cases hconcern with
    | bystanding others => exact .nothing others.replyTo? (hsilent others.accepted)
    | sent offers left finished _ accepted =>
        obtain ⟨hphase, _, hnone⟩ := hposted.of_offer offers
        exact .sent hphase hnone (Stream.Traffic.replyTo?_append_self hnone finished)
          (hsaid accepted)
    | denied offers left finished _ accepted =>
        obtain ⟨hphase, _, hnone⟩ := hposted.of_offer offers
        exact .denied hphase hnone (Stream.Traffic.replyTo?_append_self hnone finished)
          (hsilent accepted)
    | withdrawn offers left finished accepted =>
        obtain ⟨hphase, _, hnone⟩ := hposted.of_offer offers
        have hsending : PostedIn plan w.books (.sending _ _) := postedIn_of_phase hphase h
        have hkilled : w.run.killed = true := by
          cases hsending.1 with
          | answered _ reply => exact absurd (reply.symm.trans hnone) (by simp)
          | pending hoffers _ =>
              rw [hoffers, List.singleton_perm] at offers
              exact (Stream.Party.mk.inj (List.cons.inj offers).1).2.2
        exact .withdrawn hphase hnone (Stream.Traffic.replyTo?_append_self hnone finished) hkilled
          (hsilent accepted)

/-- When somebody looks at the stream, the run says what it has on its way, or nothing. -/
theorem PartingAt.serve (hposting : Posting plan (.held : Point ω) w.books)
    (hparting : PartingAt plan expected w.books events (.held : Point ω)) (position : Nat) :
    PartingAt plan expected { w.books with traffic := w.traffic.serveAt position }
      (events ++ w.saidBy { w with traffic := w.traffic.serveAt position } (.serve position))
      (.held : Point ω) := by
  have haddressing {ticket : Nat} {event : Event τ} (hphase : w.run.phase = .sending ticket event) :
      Addressing plan expected w.books events ticket event := partingIn_of_phase hphase hparting
  change PartingIn plan expected _ _ w.run.phase
  cases hposting.glance position with
  | nothing replies silent =>
      rw [silent, List.append_nil]
      exact PartingIn.frame hparting { w.books with traffic := w.traffic.serveAt position } rfl rfl
        replies
  | sent phase unanswered answered said =>
      rw [said, phase]
      exact (haddressing phase).taken unanswered answered rfl rfl
  | denied phase unanswered answered silent =>
      rw [silent, List.append_nil, phase]
      exact Addressing.unsent answered nofun ((haddressing phase).spoken_of_waiting unanswered)
  | withdrawn phase unanswered answered _ silent =>
      rw [silent, List.append_nil, phase]
      exact Addressing.unsent answered nofun ((haddressing phase).spoken_of_waiting unanswered)

/-- A run that has said nothing yet since it has to end. -/
theorem Posting.parting (h : Posting plan (.held : Point ω) w.books) :
    PartingAt plan w.Awaits w.books [] (.held : Point ω) := by
  have hposted : PostedIn plan w.books w.run.phase := h.stage
  change PartingIn plan w.Awaits w.books [] w.run.phase
  cases hphase : w.run.phase with
  | created => exact spoken_nil
  | querying number due => exact ⟨fun _ => .inFlight hphase, rfl⟩
  | sleeping pause due => exact spoken_nil
  | tidying pause defect => exact spoken_nil
  | ended how => exact spoken_nil.said
  | sending ticket event =>
      rw [hphase] at hposted
      obtain ⟨_, _, hevent⟩ := hposted
      have haddressing : Addressing plan w.Awaits w.books [] ticket event := by
        cases hreply : w.traffic.replyTo? (.run ticket) with
        | none =>
            rcases hevent with hnewest | habort
            · exact .first hreply hnewest (.waiting hphase hreply) rfl
            · exact .last hreply habort spoken_nil
        | some reply =>
            by_cases hsent : reply = .sent
            · subst hsent
              exact .sent hreply spoken_nil.said fun _ => spoken_nil
            · exact .unsent hreply hsent spoken_nil
      exact haddressing

/-- Whatever a run has said since it has to end, these are its last events so far. -/
theorem PartingAt.said (hparting : PartingAt plan expected w.books events (.held : Point ω)) :
    Said plan expected w.readings w.queryTimes.length events := by
  have hin : PartingIn plan expected w.books events w.run.phase := hparting
  revert hin
  cases w.run.phase with
  | created => exact Spoken.said
  | sleeping pause due => exact Spoken.said
  | tidying pause defect => exact Spoken.said
  | ended how => exact id
  | querying number due =>
      rintro ⟨_, rfl⟩
      exact spoken_nil.said
  | sending ticket event =>
      intro haddressing
      cases haddressing with
      | first _ _ _ silent =>
          rw [silent]
          exact spoken_nil.said
      | last _ _ spoken => exact spoken.said
      | sent _ said _ => exact said
      | unsent _ _ spoken => exact spoken.said

variable [Wait ω] [Spans ω τ]

/-- Each action lets a run that has to end say no more than is due. -/
theorem PartingAt.act {action : Action τ} (hact : w.act? plan action = some w')
    (hmust : w.MustEnd) (hposting : Posting plan (.held : Point ω) w.books)
    (hparting : PartingAt plan expected w.books events (.held : Point ω)) :
    PartingAt plan expected w'.books (events ++ w.saidBy w' action) (.held : Point ω) := by
  have hacts := World.acts_of_act? hact
  have hstill (haside : action.isAside = true) :
      PartingAt plan expected w'.books (events ++ w.saidBy w' action) (.held : Point ω) := by
    have hother := Action.ne_run_of_isAside haside
    have hjournal := hacts.journal_eq hother
    rw [World.saidBy_of_isAside haside, List.append_nil]
    change PartingIn plan expected w'.books events w'.run.phase
    rw [hacts.phase_eq hother]
    refine PartingIn.frame hparting w'.books ?_ ?_ fun _ =>
      Stream.Traffic.replyTo?_of_finished_eq (hacts.finished_eq haside)
    · exact congrArg (List.filterMap Deed.reading?) hjournal
    · change w'.queryTimes.length = w.queryTimes.length
      rw [World.queryTimes, World.queryTimes, hjournal]
  cases hacts with
  | run hgo =>
      obtain ⟨new, haccepted, hparting'⟩ := parting_stepRun hgo hmust hposting hparting
      rwa [World.saidBy, haccepted, List.drop_left]
  | serve _ => exact hparting.serve hposting _
  | _ => exact hstill rfl

/-- A run that has to end says no more than is due, whatever happens. -/
theorem PartingAt.actAll [OrderedClock τ] {actions : List (Action τ)}
    (hact : w.actAll? plan actions = some w') (hmust : w.MustEnd)
    (hposting : Posting plan (.held : Point ω) w.books)
    (hparting : PartingAt plan expected w.books events (.held : Point ω)) :
    PartingAt plan expected w'.books (events ++ w.fromRun plan actions) (.held : Point ω) := by
  induction actions generalizing w events with
  | nil =>
      cases hact
      rwa [World.fromRun, List.append_nil]
  | cons action actions ih =>
      obtain ⟨middle, hmiddle, hact⟩ := World.exists_of_actAll?_cons hact
      have hmust' := ((World.stilled_invariant w.queryTimes).act trivial hmiddle ⟨hmust, rfl⟩).1
      have hposting' := posting_invariant.act trivial hmiddle hposting
      have hrest := ih hact hmust' hposting' (hparting.act hmiddle hmust hposting)
      rwa [World.fromRun, hmiddle, ← List.append_assoc]

/-- In the step by which a watch comes to have to end, the run says nothing, unless its task was
cancelled and it is over. -/
theorem saidBy_of_turning {action : Action τ} (hact : w.act? plan action = some w')
    (hgoing : ¬w.MustEnd) (hmust : w'.MustEnd) :
    w.saidBy w' action = [] ∨
      w.saidBy w' action = [World.killedEvent plan] ∧ w'.run.phase = .ended .cancelled := by
  cases World.acts_of_act? hact with
  | run hgo =>
      rw [World.saidBy]
      rcases World.stepRun_accepted plan hgo with haccepted | ⟨haccepted, hphase⟩
      · rw [haccepted, List.drop_length]
        exact .inl rfl
      · rw [haccepted, List.drop_left]
        exact .inr ⟨rfl, hphase⟩
  | serve _ => exact absurd hmust hgoing
  | _ => exact .inl rfl

/-- A run that offers nothing to the stream says nothing while others act. -/
theorem World.saidBy_of_silent {action : Action τ} (hact : w.act? plan action = some w')
    (hnone : w.traffic.offers = []) (hother : action ≠ .run) : w.saidBy w' action = [] := by
  cases World.acts_of_act? hact with
  | run _ => exact absurd rfl hother
  | @serve position _ =>
      rw [World.saidBy]
      rcases Stream.Traffic.serveAt_turn (t := w.traffic) (by simp [hnone]) position with
        ⟨hserves, _⟩ | ⟨_, hconcern⟩
      · simp [hserves]
      · have hsame : (w.traffic.serveAt position).accepted = w.traffic.accepted := by
          cases hconcern with
          | bystanding others => exact others.accepted
          | sent offers _ _ _ _ => rw [hnone, List.nil_perm] at offers; cases offers
          | denied _ _ _ _ accepted => exact accepted
          | withdrawn _ _ _ accepted => exact accepted
        simp [hsame]
  | _ => rfl

/-- A run that is over says nothing more. -/
theorem fromRun_of_ended {actions : List (Action τ)} {how : Ending}
    (hposting : Posting plan (.held : Point ω) w.books) (hphase : w.run.phase = .ended how) :
    w.fromRun plan actions = [] := by
  induction actions generalizing w with
  | nil => rfl
  | cons action actions ih =>
      rw [World.fromRun]
      split
      · rename_i w' hact
        have hposting' := posting_invariant.act trivial hact hposting
        have hphase' := ((World.ended_invariant how).act trivial hact ⟨rfl, hphase⟩).2
        have hnone : w.traffic.offers = [] := by
          have hposted : PostedIn plan w.books w.run.phase := hposting.stage
          rwa [hphase] at hposted
        have hother : action ≠ .run := by
          rintro rfl
          simp only [World.act?, World.runCanGo, hphase] at hact
          cases hact
        rw [ih hposting' hphase', List.append_nil, World.saidBy_of_silent hact hnone hother]
      · rfl

/-- How a run heeds the signals of its caller and its deadline, in the course of some actions. -/
structure Heeds (plan : Plan τ ω) (before : World τ ω) (actions : List (Action τ))
    (w : World τ ω) : Prop where
  /-- No query began when the deadline was reached, or after a signal that was given in the course
  of the run. -/
  silent : ∀ earlier instant number later,
    w.journal = earlier ++ (instant, .query number) :: later →
      (∀ due ∈ before.cancellation.deadline, Clock.reached instant due = false) ∧
        ∀ entry ∈ earlier, entry.2.signals plan = []
  /-- No query began from a moment on at which the watch had to end. -/
  still : ∀ earlier later w₁, actions = earlier ++ later →
    before.actAll? plan earlier = some w₁ → w₁.MustEnd → w.queryTimes = w₁.queryTimes
  /-- From such a moment on, the stream accepts from the run at most the outcome that was awaited,
  and then that the watch was aborted. -/
  farewell : ∀ earlier later w₁, actions = earlier ++ later →
    before.actAll? plan earlier = some w₁ → w₁.MustEnd →
      Said plan w₁.Awaits w.readings w.queryTimes.length (w₁.fromRun plan later)
  /-- In the step that brings such a moment about, it accepts nothing from the run but the last
  event of a cancelled task. -/
  turning : ∀ earlier action later w₁ w₂, actions = earlier ++ action :: later →
    before.actAll? plan earlier = some w₁ → ¬w₁.MustEnd → w₁.act? plan action = some w₂ →
      w₂.MustEnd → w₁.saidBy w₂ action = [] ∨
        w₁.saidBy w₂ action = [World.killedEvent plan] ∧ w₂.fromRun plan later = []

/-- Whatever happens to a watch, no query of it begins once it has to end, and at most two more of
its events reach the stream. -/
theorem heeds_signals_and_deadline [OrderedClock τ] {stream : Stream (Event τ)} {now : τ}
    {cancellation : Cancellation τ} {stopped : Bool} {actions : List (Action τ)}
    (hact : (World.start now cancellation stopped stream).actAll? plan actions = some w) :
    Heeds plan (World.start now cancellation stopped stream) actions w := by
  have hfree (actions : List (Action τ)) : ∀ action ∈ actions, True := fun _ _ => trivial
  have hposting {earlier : List (Action τ)} {w₁ : World τ ω}
      (hearlier : (World.start now cancellation stopped stream).actAll? plan earlier = some w₁) :
      Posting plan (.held : Point ω) w₁.books := by
    refine posting_invariant.actAll (hfree earlier) hearlier ⟨fun _ _ => rfl, rfl, rfl⟩
  have hafter {earlier later : List (Action τ)} {w₁ : World τ ω}
      (hactions : actions = earlier ++ later)
      (hearlier : (World.start now cancellation stopped stream).actAll? plan earlier = some w₁) :
      w₁.actAll? plan later = some w := by
    rwa [hactions, World.actAll?_append, hearlier, Option.bind_some] at hact
  constructor
  · intro earlier instant number later hsplit
    have hheedful : World.Heedful plan w :=
      World.heedful_invariant.actAll (hfree actions) hact
        ⟨fun _ hentry => absurd hentry List.not_mem_nil, fun earlier _ _ _ hnil => by
          cases earlier <;> cases hnil⟩
    have hdeadline : w.cancellation.deadline = cancellation.deadline :=
      (World.deadline_invariant cancellation.deadline).actAll (hfree actions) hact rfl
    have hquery := hheedful.queries earlier instant number later hsplit
    rwa [hdeadline] at hquery
  · intro earlier later w₁ hactions hearlier hmust
    exact ((World.stilled_invariant w₁.queryTimes).actAll (hfree later) (hafter hactions hearlier)
      ⟨hmust, rfl⟩).2
  · intro earlier later w₁ hactions hearlier hmust
    have hparting := (hposting hearlier).parting.actAll (hafter hactions hearlier) hmust
      (hposting hearlier)
    rw [List.nil_append] at hparting
    exact hparting.said
  · intro earlier action later w₁ w₂ hactions hearlier hgoing hturn hmust
    refine (saidBy_of_turning hturn hgoing hmust).imp id fun ⟨hsaid, hphase⟩ => ⟨hsaid, ?_⟩
    exact fromRun_of_ended (posting_invariant.act trivial hturn (hposting hearlier)) hphase

/-- A watch over a service that fails after three seconds, each time. -/
def faltering : Plan Int Int where
  config := ⟨"demo", .plain "up", [], 0, 5⟩
  strategy := recovering.strategy
  services _ := ⟨some 3, [], .failure (.foreign "TimeoutError" [])⟩
  hook := none
  heard := true

/-- The watch is stopped while its first query is on its way. -/
def stopMidway : List (Action Int) := [.run, .trigger .stop]

/-- The failure comes, the run begins to pause, finds out that it was stopped, and says so. -/
def windUp : List (Action Int) :=
  [.passTime 3, .run, .serve 0, .run, .helper 0, .helper 1, .run, .helper 0, .run, .serve 0, .run]

/-- The outcome that was awaited and the end of the watch are its last events, and no query follows
the first. -/
theorem heeds_signals_and_deadline_of_stopMidway :
    ∃ w₁ w : World Int Int,
      (World.start 0 ⟨false, none⟩ false ⟨2, [], false⟩).actAll? faltering stopMidway = some w₁ ∧
      (World.start 0 ⟨false, none⟩ false ⟨2, [], false⟩).actAll? faltering (stopMidway ++ windUp) =
        some w ∧
      w₁.MustEnd ∧ w.queryTimes = [0] ∧
      (w₁.fromRun faltering windUp).map Event.kind = [.queryError, .stopped] ∧
      Heeds faltering (World.start 0 ⟨false, none⟩ false ⟨2, [], false⟩) (stopMidway ++ windUp)
        w := by
  obtain ⟨w₁, hact₁, hstopped, hkinds⟩ : ∃ w₁ : World Int Int,
      (World.start 0 ⟨false, none⟩ false ⟨2, [], false⟩).actAll? faltering stopMidway = some w₁ ∧
        w₁.stopped = true ∧
        (w₁.fromRun faltering windUp).map Event.kind = [.queryError, .stopped] := ⟨_, rfl, rfl, rfl⟩
  obtain ⟨w, hact, hqueries⟩ : ∃ w : World Int Int,
      (World.start 0 ⟨false, none⟩ false ⟨2, [], false⟩).actAll? faltering (stopMidway ++ windUp) =
        some w ∧ w.queryTimes = [0] := ⟨_, rfl, rfl⟩
  exact ⟨w₁, w, hact₁, hact, .inl (.inr hstopped), hqueries, hkinds,
    heeds_signals_and_deadline hact⟩

end Leaving

end Vigil.Watch
