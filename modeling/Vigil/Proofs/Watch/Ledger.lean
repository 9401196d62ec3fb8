import Vigil.Proofs.Watch.Books

/-!
# The ledger of a run

The events on the stream of a watch are to be checked against the results of its queries.  Wherever
the run is held up, the two agree up to the one event that is on its way, and what is on its way is
told by the phase of the run.  This is the invariant of a watch; here it is stated, and it is shown
that whoever else is on the stream cannot break it.
-/

namespace Vigil.Watch

open Vigil.Stream (Denial Reply Traffic)
open Vigil.Stream.Traffic (Bystanding Closing OneSender)

variable {τ ω : Type}

section Ledger

variable [Clock τ] [Wait ω] [Spans ω τ]

/-- The events are what follows from the readings, one by one, and none of them ends the watch. -/
structure Matches (plan : Plan τ ω) (events : List (Event τ)) (readings : List (Reading τ)) :
    Prop where
  outcomes : events.map some = readings.map (Reading.outcome plan)
  going : ∀ event ∈ events, event.isTerminal = false

/-- The event says that the watch was aborted by its caller. -/
inductive IsAbort (plan : Plan τ ω) : Event τ → Prop
  | cancelled (exceeded : Bool) :
      IsAbort plan (.cancelled (.cancelled plan.config.resource exceeded))
  | stopped : IsAbort plan (.stopped (.stopped plan.config.resource))

/-- What a run may put on the stream next: the outcome of its last reading, once those of the
earlier ones are there, or an abort, once all outcomes are there. -/
inductive Next (plan : Plan τ ω) (readings : List (Reading τ)) (prior : List (Event τ)) :
    Event τ → Prop
  | observed {earlier : List (Reading τ)} {r : Reading τ} {event : Event τ}
      (split : readings = earlier ++ [r]) (behind : Matches plan prior earlier)
      (outcome : r.outcome plan = some event) : Next plan readings prior event
  | aborted {event : Event τ} (behind : Matches plan prior readings)
      (abort : IsAbort plan event) : Next plan readings prior event

/-- The events cover all readings, or all but the newest one. -/
inductive Covers (plan : Plan τ ω) (readings : List (Reading τ)) (asked : Nat)
    (events : List (Event τ)) : Prop
  | all (behind : Matches plan events readings) (few : asked ≤ readings.length + 1)
  | allButNewest {earlier : List (Reading τ)} {r : Reading τ} (split : readings = earlier ++ [r])
      (behind : Matches plan events earlier) (few : asked = readings.length)

/-- A pause that is to come is longer than the clock can count. -/
def Overlong (plan : Plan τ ω) (d : Defect) : Prop :=
  d = .tooLarge ∧ ∃ delay ∈ [plan.config.grace, plan.config.pollInterval],
    Wait.isPositive delay = true ∧ (Spans.span? delay : Option τ) = none

/-- No record can be made at an instant, and somebody would hear it. -/
def Undated (plan : Plan τ ω) (instant : τ) : Prop := Log.canRecord plan.heard instant = false

/-- Why a run that begins at an instant cannot log its first line. -/
inductive Speechless (plan : Plan τ ω) (instant : τ) (d : Defect) : Prop
  | unwritten {delay : ω} (given : delay ∈ [plan.config.initialWait, plan.config.pollInterval])
      (reason : Wait.text delay = .error d)
  | undated (reason : Undated plan instant) (tooLarge : d = .tooLarge)

/-- Why a run cannot go on at an instant: its last reading leads to no event, the next pause is too
long, or no record can be made of what there is to log. -/
inductive Cause (plan : Plan τ ω) (instant : τ) (readings : List (Reading τ)) (d : Defect) : Prop
  | unreadable {earlier : List (Reading τ)} {r : Reading τ} (split : readings = earlier ++ [r])
      (reason : Unreadable plan.strategy r.instant d r.result)
  | overlong (reason : Overlong plan d)
  | undated (reason : Undated plan instant) (tooLarge : d = .tooLarge)

/-- The run has done nothing yet. -/
structure Fresh (lone : Prop) (traffic : Traffic PartyId (Event τ)) (readings : List (Reading τ))
    (asked : Nat) : Prop where
  offers : traffic.offers = []
  unclosed : lone → traffic.stream.closed = false
  accepted : traffic.accepted = []
  readings : readings = []
  asked : asked = 0

/-- The run has nothing on its way to the stream, and the stream is up to date. -/
structure Idle (plan : Plan τ ω) (lone : Prop) (traffic : Traffic PartyId (Event τ))
    (readings : List (Reading τ)) : Prop where
  offers : traffic.offers = []
  unclosed : lone → traffic.stream.closed = false
  behind : Matches plan traffic.accepted readings

/-- The run offers an event to the stream, or knows what became of it. -/
inductive Sending (plan : Plan τ ω) (lone : Prop) (killed : Bool)
    (traffic : Traffic PartyId (Event τ)) (readings : List (Reading τ)) (ticket : Nat)
    (event : Event τ) : Prop
  | pending (offers : traffic.offers = [⟨.run ticket, .send event, killed⟩])
      (reply : traffic.replyTo? (.run ticket) = none)
      (unclosed : lone → traffic.stream.closed = false)
      (next : Next plan readings traffic.accepted event)
  | sent {prior : List (Event τ)} (offers : traffic.offers = [])
      (reply : traffic.replyTo? (.run ticket) = some .sent) (alive : killed = false)
      (unclosed : lone → traffic.stream.closed = false)
      (accepted : traffic.accepted = prior ++ [event]) (next : Next plan readings prior event)
  | denied {d : Denial} (offers : traffic.offers = [])
      (reply : traffic.replyTo? (.run ticket) = some (.denied d)) (alive : killed = false)
      (notLone : ¬lone) (next : Next plan readings traffic.accepted event)
  | withdrawn (offers : traffic.offers = [])
      (reply : traffic.replyTo? (.run ticket) = some .withdrawn)
      (unclosed : lone → traffic.stream.closed = false)
      (next : Next plan readings traffic.accepted event)

/-- What the stream carries when the run is over since an instant. -/
inductive Over (plan : Plan τ ω) (lone : Prop) (instant : τ) (killed : Bool)
    (readings : List (Reading τ)) (asked : Nat) (events : List (Event τ)) : Ending → Prop
  | finished {prior : List (Event τ)} {event : Event τ} (alive : killed = false)
      (accepted : events = prior ++ [event]) (terminal : event.isTerminal = true)
      (next : Next plan readings prior event) (few : asked = readings.length) :
      Over plan lone instant killed readings asked events .finished
  | cancelled {prior : List (Event τ)} (covers : Covers plan readings asked prior)
      (accepted : events = prior ++ [World.killedEvent plan] ∨ ¬lone ∧ events = prior) :
      Over plan lone instant killed readings asked events .cancelled
  | broken {d : Defect} (alive : killed = true → Undated plan instant)
      (covers : Covers plan readings asked events) (cause : Cause plan instant readings d) :
      Over plan lone instant killed readings asked events (.broken d)
  /-- The grace period has no text. -/
  | unwritten {d : Defect} (alive : killed = false) (covers : Covers plan readings asked events)
      (reason : World.sleepingLine plan = .error d) :
      Over plan lone instant killed readings asked events (.broken d)
  /-- The run could not log its first line. -/
  | mute {d : Defect} (alive : killed = false) (reason : Speechless plan instant d)
      (nothing : readings = [] ∧ asked = 0 ∧ events = []) :
      Over plan lone instant killed readings asked events (.mute d)
  | denied {d : Denial} (alive : killed = false) (notLone : ¬lone)
      (covers : Covers plan readings asked events) :
      Over plan lone instant killed readings asked events (.denied d)

/-- Whether a run closes its stream when it ends: only one that could not log its first line leaves
it open. -/
def Shut (lone : Prop) (stream : Stream (Event τ)) : Ending → Prop
  | .mute _ => lone → stream.closed = false
  | _ => stream.closed = true

/-- What holds while the run is held up in a phase. -/
def Held (plan : Plan τ ω) (lone : Prop) (b : Books τ) : Phase τ → Prop
  | .created => Fresh lone b.traffic b.readings b.asked
  | .querying number _ =>
      Idle plan lone b.traffic b.readings ∧ b.asked = b.readings.length + 1 ∧
        number = b.readings.length
  | .sending ticket event =>
      Sending plan lone b.run.killed b.traffic b.readings ticket event ∧
        b.asked = b.readings.length ∧ ticket < b.run.sends
  | .sleeping _ _ => Idle plan lone b.traffic b.readings ∧ b.asked = b.readings.length
  | .tidying _ defect =>
      Idle plan lone b.traffic b.readings ∧ b.asked = b.readings.length ∧
        ∀ d, defect = some d → Overlong plan d
  | .ended how =>
      b.traffic.offers = [] ∧ Shut lone b.traffic.stream how ∧
        ∃ instant, b.endedAt = some instant ∧
          Over plan lone instant b.run.killed b.readings b.asked b.traffic.accepted how

/-- The stream is up to date except for the newest reading. -/
structure Answered (plan : Plan τ ω) (lone : Prop) (b : Books τ) (number : Nat) (result : Result) :
    Prop where
  offers : b.traffic.offers = []
  unclosed : lone → b.traffic.stream.closed = false
  newest : ∃ earlier, b.readings = earlier ++ [⟨b.now, number, result⟩] ∧
    Matches plan b.traffic.accepted earlier
  few : b.asked = b.readings.length

/-- What holds at a point of the control flow. -/
def Stage (plan : Plan τ ω) (lone : Prop) (b : Books τ) : Point ω → Prop
  | .held => Held plan lone b b.run.phase
  | .deciding =>
      b.run.killed = false ∧ Idle plan lone b.traffic b.readings ∧ b.asked = b.readings.length
  | .asked number =>
      b.run.killed = false ∧ Idle plan lone b.traffic b.readings ∧
        b.asked = b.readings.length + 1 ∧ number = b.readings.length
  | .due number =>
      b.run.killed = false ∧ Idle plan lone b.traffic b.readings ∧
        b.asked = b.readings.length + 1 ∧ number = b.readings.length
  | .answered number result => b.run.killed = false ∧ Answered plan lone b number result
  | .pausing delay =>
      b.run.killed = false ∧ Idle plan lone b.traffic b.readings ∧
        b.asked = b.readings.length ∧ delay ∈ [plan.config.grace, plan.config.pollInterval]

/-- What holds everywhere.  If the run is alone in closing the stream (`lone`), nothing it offers is
ever turned down. -/
structure Kept (plan : Plan τ ω) (lone : Prop) (b : Books τ) : Prop where
  fresh : ∀ ticket, b.run.sends ≤ ticket → b.traffic.replyTo? (.run ticket) = none
  sender : OneSender lone b.traffic
  undenied : lone → ∀ ticket d, (PartyId.run ticket, Reply.denied d) ∉ b.traffic.finished
  /-- The readings are the results of the queries, in order. -/
  numbered : ∀ number r, b.readings[number]? = some r →
    r.number = number ∧ r.result = plan.strategy.read (plan.services number).answer
  counted : b.run.queries = b.asked

/-- The invariant of a watch. -/
structure Sound (plan : Plan τ ω) (lone : Prop) (point : Point ω) (b : Books τ) : Prop where
  kept : Kept plan lone b
  stage : Stage plan lone b point

end Ledger

section Entries

variable {plan : Plan τ ω} {readings : List (Reading τ)} {prior : List (Event τ)}
variable {event : Event τ}

theorem IsAbort.isTerminal (h : IsAbort plan event) : event.isTerminal = true := by
  cases h <;> rfl

variable [Clock τ]

/-- An event that does not end the watch brings the stream up to date. -/
theorem Next.matches (h : Next plan readings prior event) (hgoing : event.isTerminal = false) :
    Matches plan (prior ++ [event]) readings := by
  cases h with
  | aborted _ abort => rw [abort.isTerminal] at hgoing; cases hgoing
  | observed split behind outcome =>
      subst split
      constructor
      · simp [behind.outcomes, outcome]
      · intro e he
        rcases List.mem_append.mp he with he | he
        · exact behind.going e he
        · rw [List.mem_singleton.mp he, hgoing]

/-- A run that has done nothing is up to date. -/
theorem Fresh.idle {lone : Prop} {traffic : Traffic PartyId (Event τ)} {asked : Nat}
    (h : Fresh lone traffic readings asked) :
    Idle plan lone traffic readings ∧ asked = readings.length := by
  obtain ⟨hoffers, hunclosed, haccepted, rfl, rfl⟩ := h
  refine ⟨⟨hoffers, hunclosed, ?_⟩, rfl⟩
  rw [haccepted]
  exact ⟨rfl, fun event hevent => absurd hevent List.not_mem_nil⟩

theorem Next.covers (h : Next plan readings prior event) {asked : Nat}
    (hfew : asked = readings.length) : Covers plan readings asked prior := by
  cases h with
  | observed split behind _ => exact .allButNewest split behind hfew
  | aborted behind _ => exact .all behind (by omega)

end Entries

section Frame

variable {plan : Plan τ ω} {lone : Prop} {b : Books τ} {t' : Traffic PartyId (Event τ)}

theorem Kept.bystanding (h : Kept plan lone b) (hothers : Bystanding b.traffic t')
    (hsender : OneSender lone t') : Kept plan lone { b with traffic := t' } where
  fresh ticket hticket := (hothers.replyTo? ticket).trans (h.fresh ticket hticket)
  sender := hsender
  undenied hl ticket d hin := by
    obtain ⟨answers, hanswers, hfinished⟩ := hothers.finished
    rw [hfinished, List.mem_append] at hin
    rcases hin with hin | hin
    · exact h.undenied hl ticket d hin
    · exact absurd (hanswers _ hin) (by simp)
  numbered := h.numbered
  counted := h.counted

theorem Kept.closing (h : Kept plan lone b) {last : List (Event τ)}
    (hclosing : Closing last b.traffic t') : Kept plan lone { b with traffic := t' } where
  fresh ticket hticket :=
    (Stream.Traffic.replyTo?_of_finished_eq hclosing.finished).trans (h.fresh ticket hticket)
  sender := hclosing.sender h.sender
  undenied hl ticket d := by
    rw [hclosing.finished]
    exact h.undenied hl ticket d
  numbered := h.numbered
  counted := h.counted

theorem Fresh.bystanding {readings : List (Reading τ)} {asked : Nat}
    {t : Traffic PartyId (Event τ)} (h : Fresh lone t readings asked) (hothers : Bystanding t t')
    (hlone : lone → t'.stream.closed = t.stream.closed) : Fresh lone t' readings asked := by
  obtain ⟨hoffers, hunclosed, haccepted, hreadings, hasked⟩ := h
  have hperm := hothers.offers
  rw [hoffers, List.perm_nil] at hperm
  exact ⟨hperm, fun hl => by rw [hlone hl, hunclosed hl], hothers.accepted.trans haccepted,
    hreadings, hasked⟩

theorem Shut.bystanding {how : Ending} {t : Traffic PartyId (Event τ)} (h : Shut lone t.stream how)
    (hlone : lone → t'.stream.closed = t.stream.closed)
    (hclosed : t.stream.closed = true → t'.stream.closed = true) : Shut lone t'.stream how := by
  cases how with
  | mute d => exact fun hl => (hlone hl).trans (h hl)
  | _ => exact hclosed h

variable [Clock τ]

theorem Idle.bystanding {readings : List (Reading τ)} {t : Traffic PartyId (Event τ)}
    (h : Idle plan lone t readings) (hothers : Bystanding t t')
    (hlone : lone → t'.stream.closed = t.stream.closed) : Idle plan lone t' readings := by
  obtain ⟨hoffers, hunclosed, hbehind⟩ := h
  refine ⟨?_, fun hl => by rw [hlone hl, hunclosed hl], by rwa [hothers.accepted]⟩
  have hperm := hothers.offers
  rwa [hoffers, List.perm_nil] at hperm

theorem Sending.bystanding {killed : Bool} {readings : List (Reading τ)}
    {t : Traffic PartyId (Event τ)} {ticket : Nat} {event : Event τ}
    (h : Sending plan lone killed t readings ticket event) (hothers : Bystanding t t')
    (hlone : lone → t'.stream.closed = t.stream.closed) :
    Sending plan lone killed t' readings ticket event := by
  have hoffers := hothers.offers
  have hreply := hothers.replyTo? ticket
  have haccepted := hothers.accepted
  cases h with
  | pending offers reply unclosed next =>
      rw [offers, List.perm_singleton] at hoffers
      exact .pending hoffers (hreply.trans reply) (fun hl => by rw [hlone hl, unclosed hl])
        (by rwa [haccepted])
  | sent offers reply alive unclosed accepted next =>
      rw [offers, List.perm_nil] at hoffers
      exact .sent hoffers (hreply.trans reply) alive (fun hl => by rw [hlone hl, unclosed hl])
        (haccepted.trans accepted) next
  | denied offers reply alive notLone next =>
      rw [offers, List.perm_nil] at hoffers
      exact .denied hoffers (hreply.trans reply) alive notLone (by rwa [haccepted])
  | withdrawn offers reply unclosed next =>
      rw [offers, List.perm_nil] at hoffers
      exact .withdrawn hoffers (hreply.trans reply) (fun hl => by rw [hlone hl, unclosed hl])
        (by rwa [haccepted])

variable [Wait ω] [Spans ω τ]

/-- What does not concern the run does not change what holds where it is held up. -/
theorem Held.bystanding {phase : Phase τ} (h : Held plan lone b phase)
    (hothers : Bystanding b.traffic t')
    (hlone : lone → t'.stream.closed = b.traffic.stream.closed)
    (hclosed : b.traffic.stream.closed = true → t'.stream.closed = true) :
    Held plan lone { b with traffic := t' } phase := by
  cases phase with
  | created => exact Fresh.bystanding h hothers hlone
  | querying number due => exact ⟨h.1.bystanding hothers hlone, h.2⟩
  | sending ticket event => exact ⟨h.1.bystanding hothers hlone, h.2⟩
  | sleeping pause due => exact ⟨h.1.bystanding hothers hlone, h.2⟩
  | tidying pause defect => exact ⟨h.1.bystanding hothers hlone, h.2⟩
  | ended how =>
      obtain ⟨hoffers, hshut, instant, hinstant, hover⟩ := h
      have hperm := hothers.offers
      rw [hoffers, List.perm_nil] at hperm
      exact ⟨hperm, hshut.bystanding hlone hclosed, instant, hinstant, by rwa [hothers.accepted]⟩

theorem Sound.bystanding (h : Sound plan lone .held b) (hothers : Bystanding b.traffic t')
    (hsender : OneSender lone t') (hlone : lone → t'.stream.closed = b.traffic.stream.closed)
    (hclosed : b.traffic.stream.closed = true → t'.stream.closed = true) :
    Sound plan lone (.held : Point ω) { b with traffic := t' } :=
  ⟨h.kept.bystanding hothers hsender, h.stage.bystanding hothers hlone hclosed⟩

end Frame

end Vigil.Watch
