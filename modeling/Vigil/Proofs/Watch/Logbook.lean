import Vigil.Proofs.Watch.Alert
import Vigil.Proofs.Watch.Echo
import Vigil.Proofs.Watch.Minutes

/-!
# The log of a run

At every point of its control flow, the log of a run is made of entries whose tally can be told from
the rest of its state: from the results of its queries, from the calls of its hook, and from where
it is held up.  Only the abort of a run leaves no lasting trace besides the log, so it is noticed
when it happens.
-/

namespace Vigil.Watch

open Log (Note)
open Vigil.Stream (Traffic)

variable {τ ω : Type}

/-! ### The tally of a log -/

/-- The failures of a hook in some calls, with instants. -/
def failuresOf (hook : Option (Snapshot τ → Reaction)) (calls : List (τ × Snapshot τ)) :
    List (τ × Failure) :=
  calls.filterMap fun (instant, snapshot) =>
    (hook.bind fun react => (react snapshot).failure?).map (instant, ·)

/-- Those of some things that could be logged when they came. -/
def recordable [Clock τ] {α : Type} (plan : Plan τ ω) (things : List (τ × α)) : List (τ × α) :=
  things.filter fun thing => Log.canRecord plan.heard thing.1

namespace World

/-- The readings of which the log has told. -/
def reported (w : World τ ω) : Point ω → List (Reading τ)
  | .answered _ _ => w.readings.dropLast
  | _ => w.readings

/-- How often the grace period has come. -/
def graces (w : World τ ω) : Nat := if w.run.graceDue then 0 else 1

/-- How often the run was ended by a cancellation of its task after its first step. -/
def interruptions (w : World τ ω) : Nat :=
  if w.ending? = some .cancelled ∧ w.hasBegun = true then 1 else 0

/-- The news of an abort that a run has on its way. -/
def aborting (w : World τ ω) : Point ω → List (τ × Event.Kind)
  | .held =>
      match w.run.phase with
      | .sending _ event =>
          if event.kind = .cancelled ∨ event.kind = .stopped then [(w.now, event.kind)] else []
      | _ => []
  | _ => []

end World

section Account

variable [Clock τ]

/-- The tally of the entries that tell of some readings. -/
def tallyOf (plan : Plan τ ω) (readings : List (Reading τ)) : Tally τ where
  statuses := readings.flatMap fun r => (r.tally plan).statuses
  troubles := readings.flatMap fun r => (r.tally plan).troubles

/-- The tally of the log at a point of the control flow, if the run was aborted and its hook failed
as told. -/
def account (plan : Plan τ ω) (w : World τ ω) (p : Point ω) (aborts : List (τ × Event.Kind))
    (hookFailures : List (τ × Failure)) : Tally τ :=
  { tallyOf plan (w.reported p) with
    aborts := aborts
    hookFailures := hookFailures
    graces := w.graces
    cancellations := w.interruptions }

/-- The log is made of entries with the right tally. -/
def Logged [Wait ω] (plan : Plan τ ω) (w : World τ ω) (p : Point ω)
    (aborts : List (τ × Event.Kind)) (hookFailures : List (τ × Failure)) : Prop :=
  ∃ entries : List (τ × Entry), NotesOf plan entries w.notes ∧
    tally entries = account plan w p aborts hookFailures

end Account

/-- The run has taken its first step, and it is not over. -/
def Phase.isUnderWay : Phase τ → Bool
  | .created => false
  | .ended _ => false
  | _ => true

namespace World

/-- Where a run has taken its first step and where it is over. -/
def AwakeAt (w : World τ ω) : Point ω → Prop
  | .held =>
      match w.run.phase with
      | .created => w.hasBegun = false
      | .ended _ => True
      | _ => w.hasBegun = true
  | _ => w.hasBegun = true ∧ w.ending? = none

theorem awakeAt_of_phase {w : World τ ω} {phase : Phase τ} (hphase : w.run.phase = phase)
    (hunderWay : phase.isUnderWay = true) (h : w.AwakeAt (.held : Point ω)) :
    w.hasBegun = true ∧ w.ending? = none := by
  rw [AwakeAt, hphase] at h
  rw [ending?, hphase]
  cases phase with
  | created => cases hunderWay
  | ended how => cases hunderWay
  | _ => exact ⟨h, rfl⟩

variable [Clock τ] [Wait ω] [Spans ω τ] {plan : Plan τ ω}

theorem awake_stable : Stable plan fun p w => w.AwakeAt p := by
  intro w p p' w' hmove h
  have hstill {w₁ : World τ ω} (hminutes : w₁.minutes.hasBegun = w.minutes.hasBegun)
      (hbegun : w.hasBegun = true) : w₁.hasBegun = true := hminutes.trans hbegun
  have hphase {w₁ : World τ ω} (hrun : w₁.books.run.phase = w.books.run.phase)
      (hgoing : w.ending? = none) : w₁.ending? = none := by
    have hrun : w₁.run.phase = w.run.phase := hrun
    rw [ending?, hrun]
    exact hgoing
  cases hmove with
  | @start line phase alive _ _ =>
      refine ⟨congrArg Minutes.hasBegun (w.minutes_withStart line), ?_⟩
      exact hphase (by rw [books_withStart]; rfl) (by rw [ending?, phase])
  | @abort note event reason _ => exact hstill (by rw [minutes_send, minutes_note]) h.1
  | ask noReason =>
      exact ⟨hstill (by rw [minutes_withQuery]) h.1, hphase (by rw [books_withQuery]; rfl) h.2⟩
  | wait duration => exact h.1
  | atOnce duration => exact h
  | inTime phase alive reached => exact awakeAt_of_phase phase rfl h
  | answer =>
      exact ⟨hstill (by rw [minutes_withAnswer]) h.1, hphase (by rw [books_withAnswer]) h.2⟩
  | @publish number result notes event outcome _ =>
      exact hstill (by rw [minutes_send, minutes_noteAll]) h.1
  | @grace ticket snapshot line phase reply first sleeping _ =>
      obtain ⟨hbegun, hgoing⟩ := awakeAt_of_phase phase rfl h
      refine ⟨hstill (by rw [minutes_withGrace, minutes_withHook]) hbegun, hphase ?_ hgoing⟩
      rw [books_withGrace, books_withHook, run_withHook]
      rfl
  | @progress ticket snapshot phase reply later _ =>
      obtain ⟨hbegun, hgoing⟩ := awakeAt_of_phase phase rfl h
      exact ⟨hstill (by rw [minutes_withHook]) hbegun, hphase (by rw [books_withHook]) hgoing⟩
  | retry phase reply terminal noSnapshot => exact awakeAt_of_phase phase rfl h
  | sleep positive length => exact hstill (by rw [minutes_goTo, minutes_withPause]) h.1
  | overrun positive length =>
      exact hstill (by rw [minutes_goTo, minutes_dismissHelpers, minutes_withPause]) h.1
  | hurry positive =>
      exact ⟨hstill (by rw [minutes_record_paused]) h.1, hphase (by rw [books_record_paused]) h.2⟩
  | wake phase reason => exact (awakeAt_of_phase phase rfl h).1
  | rise phase tidy alive => exact awakeAt_of_phase phase rfl h
  -- elsewhere the run is over
  | _ => exact trivial

/-! ### Every move -/

omit [Spans ω τ] in
/-- What a run finds in the results of its queries, the log says. -/
theorem tells_of_observation {w : World τ ω} {result : Result} {notes : List Note}
    {seen : Except Defect (Event τ)} (number : Nat)
    (hseen : w.observation plan result = some (notes, seen))
    (hdated : notes = [] ∨ w.CanRecord plan) : Tells plan ⟨w.now, number, result⟩ notes := by
  cases result with
  | cancelled => cases hseen
  | failure f => exact tells_of_observeFailure number (Option.some.inj hseen) hdated
  | payload payload => exact tells_of_observePayload number (Option.some.inj hseen) hdated

end World

section Writing

variable [Clock τ] {plan : Plan τ ω} {w w' : World τ ω} {p p' : Point ω}
variable {aborts : List (τ × Event.Kind)} {failures : List (τ × Failure)}

theorem tallyOf_append (plan : Plan τ ω) (readings readings' : List (Reading τ)) :
    tallyOf plan (readings ++ readings') = tallyOf plan readings + tallyOf plan readings' := by
  simp only [tallyOf, List.flatMap_append]
  rfl

theorem tallyOf_singleton (plan : Plan τ ω) (r : Reading τ) :
    tallyOf plan [r] = r.tally plan := by
  simp only [tallyOf, List.flatMap_singleton]
  rfl

variable [Wait ω]

/-- More is logged, about some readings of which the log has not told yet. -/
theorem Logged.write (h : Logged plan w p aborts failures) {more : List (τ × Entry)}
    {notes : List (τ × Note)} (hmore : NotesOf plan more notes)
    (seen : List (Reading τ)) {aborts' : List (τ × Event.Kind)}
    {failures' : List (τ × Failure)} {graces cancellations : Nat}
    (hnotes : w'.notes = w.notes ++ notes)
    (hseen : w'.reported p' = w.reported p ++ seen)
    (htally : tally more =
      { tallyOf plan seen with
        aborts := aborts'
        hookFailures := failures'
        graces := graces
        cancellations := cancellations })
    (hgraces : w'.graces = w.graces + graces)
    (hinterruptions : w'.interruptions = w.interruptions + cancellations) :
    Logged plan w' p' (aborts ++ aborts') (failures ++ failures') := by
  obtain ⟨entries, hentries, heq⟩ := h
  refine ⟨entries ++ more, by rw [hnotes]; exact hentries.append hmore, ?_⟩
  rw [tally_append, heq, htally, account, account, hseen, tallyOf_append, hgraces, hinterruptions]
  rfl

/-- Nothing is logged, and nothing is there to be logged. -/
theorem Logged.of_eq (h : Logged plan w p aborts failures) (hnotes : w'.notes = w.notes)
    (hreported : w'.reported p' = w.reported p) (hgraces : w'.graces = w.graces)
    (hinterruptions : w'.interruptions = w.interruptions) :
    Logged plan w' p' aborts failures := by
  rw [Logged, hnotes, account, hreported, hgraces, hinterruptions]
  exact h

/-- More is logged, and none of it is about readings or an abort. -/
theorem Logged.aside (h : Logged plan w p aborts failures) {more : List (τ × Entry)}
    {notes : List (τ × Note)} (hmore : NotesOf plan more notes)
    {failures' : List (τ × Failure)} {graces : Nat} (hnotes : w'.notes = w.notes ++ notes)
    (hreported : w'.reported p' = w.reported p)
    (htally : tally more = { hookFailures := failures', graces := graces })
    (hgraces : w'.graces = w.graces + graces)
    (hinterruptions : w'.interruptions = w.interruptions) :
    Logged plan w' p' aborts (failures ++ failures') := by
  have hlogged : Logged plan w' p' (aborts ++ []) (failures ++ failures') :=
    h.write hmore [] hnotes (by rw [hreported, List.append_nil]) htally hgraces hinterruptions
  rwa [List.append_nil] at hlogged

/-- The log goes on with what a move adds to it. -/
def GoesOn (plan : Plan τ ω) (w : World τ ω) (aborts : List (τ × Event.Kind))
    (failures : List (τ × Failure)) (w' : World τ ω) (p' : Point ω) : Prop :=
  ∃ calls, w'.hookCalls = w.hookCalls ++ calls ∧
    Logged plan w' p' (aborts ++ w'.aborting p')
      (failures ++ recordable plan (failuresOf plan.hook calls))

/-- Most moves call no hook and leave the grace period as it is. -/
theorem Logged.goesOn (h : Logged plan w p aborts failures) (hgoing : w.interruptions = 0)
    {more : List (τ × Entry)} {notes : List (τ × Note)} (hmore : NotesOf plan more notes)
    (seen : List (Reading τ)) {cancellations : Nat}
    (hcalls : w'.minutes.calls = w.minutes.calls)
    (hdue : w'.minutes.graceDue = w.minutes.graceDue)
    (hnotes : w'.minutes.notes = w.notes ++ notes)
    (hseen : w'.reported p' = w.reported p ++ seen)
    (htally : tally more =
      { tallyOf plan seen with aborts := w'.aborting p', cancellations := cancellations })
    (hinterruptions : w'.interruptions = cancellations) : GoesOn plan w aborts failures w' p' := by
  have hdue : w'.run.graceDue = w.run.graceDue := hdue
  refine ⟨[], by rw [List.append_nil]; exact hcalls,
    h.write hmore seen hnotes hseen htally ?_ ?_⟩
  · rw [World.graces, World.graces, hdue]
    rfl
  · rw [hinterruptions, hgoing, Nat.zero_add]

/-- Nothing is logged, also not of some readings. -/
theorem Logged.pass (h : Logged plan w p aborts failures) (hgoing : w.interruptions = 0)
    (seen : List (Reading τ)) (hminutes : w'.minutes = w.minutes)
    (hbefore : w.readings = w.reported p ++ seen) (hnothing : tallyOf plan seen = {})
    (hafter : w'.reported p' = w'.readings) (hinterruptions : w'.interruptions = 0)
    (haborting : w'.aborting p' = []) : GoesOn plan w aborts failures w' p' := by
  have hreadings : w'.readings = w.readings := congrArg Minutes.readings hminutes
  refine h.goesOn hgoing .nil seen (by rw [hminutes]) (by rw [hminutes]) ?_ ?_ ?_ hinterruptions
  · rw [hminutes]
    exact (List.append_nil _).symm
  · rw [hafter, hreadings, hbefore]
  · rw [hnothing, haborting]
    rfl

/-- Nothing is logged, and there are no readings of which the log has not told. -/
theorem Logged.still (h : Logged plan w p aborts failures) (hgoing : w.interruptions = 0)
    (hminutes : w'.minutes = w.minutes) (hbefore : w.reported p = w.readings)
    (hafter : w'.reported p' = w'.readings) (hinterruptions : w'.interruptions = 0)
    (haborting : w'.aborting p' = []) : GoesOn plan w aborts failures w' p' :=
  h.pass hgoing [] hminutes (by rw [hbefore, List.append_nil]) rfl hafter hinterruptions haborting

/-- The task of a run that has begun was cancelled. -/
theorem Logged.withFarewell (h : Logged plan w p aborts failures) (hgoing : w.interruptions = 0)
    (seen : List (Reading τ)) {w₁ : World τ ω} (hminutes : w₁.minutes = w.minutes)
    (hnow : w₁.now = w.now) (hdated : w.CanRecord plan) (hbegun : w.hasBegun = true)
    (hseen : w.readings = w.reported p ++ seen) (hnothing : tallyOf plan seen = {}) :
    GoesOn plan w aborts failures (w₁.withFarewell plan) .held := by
  have hunwound := w₁.minutes_withFarewell plan
  have hnotes : w₁.notes = w.notes := congrArg Minutes.notes hminutes
  have hbegun' : (w₁.withFarewell plan).hasBegun = true := by
    have hsame : (w₁.withFarewell plan).hasBegun = w₁.hasBegun :=
      congrArg Minutes.hasBegun hunwound
    rw [hsame, ← hbegun]
    exact congrArg Minutes.hasBegun hminutes
  have hentry : NotesOf plan [(w.now, .cancelled)] [(w.now, .warning "Poll task cancelled")] :=
    .single rfl hdated
  refine h.goesOn hgoing hentry seen (by rw [hunwound, hminutes])
    (by rw [hunwound, hminutes]) ?_ ?_ ?_ (if_pos ⟨rfl, hbegun'⟩)
  · rw [hunwound, hnow, hnotes]
  · rw [← hseen]
    exact congrArg Minutes.readings (hunwound.trans (by rw [hminutes]))
  · rw [hnothing]
    rfl

/-- What the hook is told of an observation. -/
def callsOf (plan : Plan τ ω) (w : World τ ω) (snapshot : Snapshot τ) : List (τ × Snapshot τ) :=
  (plan.hook.map fun _ => (w.now, snapshot)).toList

omit [Clock τ] [Wait ω] in
theorem failuresOf_callsOf (plan : Plan τ ω) (w : World τ ω) (snapshot : Snapshot τ) :
    failuresOf plan.hook (callsOf plan w snapshot) =
      ((plan.hook.bind fun react => (react snapshot).failure?).map (w.now, ·)).toList := by
  rw [failuresOf, callsOf]
  cases plan.hook with
  | none => rfl
  | some react => cases hreact : (react snapshot).failure? <;> simp [hreact]

/-- The hook is called, and its failure is logged. -/
theorem Logged.withHook (h : Logged plan w (.held : Point ω) aborts failures)
    (snapshot : Snapshot τ) (hdated : World.complaints plan snapshot = [] ∨ w.CanRecord plan) :
    Logged plan (w.withHook plan snapshot) (.held : Point ω) aborts
      (failures ++ recordable plan (failuresOf plan.hook (callsOf plan w snapshot))) := by
  have hminutes := w.minutes_withHook plan snapshot
  have hrun := w.run_withHook plan snapshot
  have hbegun : (w.withHook plan snapshot).hasBegun = w.hasBegun :=
    congrArg Minutes.hasBegun hminutes
  let failure : Option Failure := plan.hook.bind fun react => (react snapshot).failure?
  have hcomplaints : World.complaints plan snapshot =
      (failure.map fun f => ⟨.error, "Tick hook failed; continuing", some f⟩).toList :=
    World.complaints_eq plan snapshot
  have hfailures : recordable plan (failuresOf plan.hook (callsOf plan w snapshot)) =
      (failure.map (w.now, ·)).toList := by
    rw [failuresOf_callsOf, recordable, List.filter_eq_self]
    change ∀ thing ∈ (failure.map (w.now, ·)).toList, _
    intro thing hthing
    rw [hcomplaints] at hdated
    cases hfailure : failure with
    | none =>
        rw [hfailure] at hthing
        cases hthing
    | some f =>
        rw [hfailure] at hthing hdated
        obtain rfl := List.mem_singleton.mp hthing
        exact hdated.resolve_left (List.cons_ne_nil _ _)
  have hmore : NotesOf plan ((failure.map Entry.hookFailed).toList.map (w.now, ·))
      ((World.complaints plan snapshot).map (w.now, ·)) := by
    refine .map ?_ hdated
    rw [hcomplaints]
    cases failure with
    | none => exact .nil
    | some f => exact .cons rfl .nil
  have htally : tally ((failure.map Entry.hookFailed).toList.map (w.now, ·)) =
      { hookFailures := (failure.map (w.now, ·)).toList, graces := 0 } := by
    cases failure <;> rfl
  rw [hfailures]
  refine h.aside hmore (congrArg Minutes.notes hminutes) (congrArg Minutes.readings hminutes)
    htally ?_ ?_
  · rw [World.graces, World.graces, hrun]
    rfl
  · rw [World.interruptions, World.interruptions, World.ending?, World.ending?, hrun, hbegun]

/-- When the hook is called, nothing is logged yet. -/
theorem Logged.callHook (h : Logged plan w (.held : Point ω) aborts failures)
    (snapshot : Snapshot τ) :
    Logged plan (w.callHook plan snapshot) (.held : Point ω) aborts failures := by
  have hminutes := w.minutes_callHook plan snapshot
  have hrun : (w.callHook plan snapshot).run = w.run :=
    congrArg Books.run (w.books_callHook plan snapshot)
  have hbegun : (w.callHook plan snapshot).hasBegun = w.hasBegun :=
    congrArg Minutes.hasBegun hminutes
  refine h.of_eq (congrArg Minutes.notes hminutes) (congrArg Minutes.readings hminutes) ?_ ?_
  · rw [World.graces, World.graces, hrun]
  · rw [World.interruptions, World.interruptions, World.ending?, World.ending?, hrun, hbegun]

/-- A run that breaks down logs nothing. -/
theorem Logged.breakDown (h : Logged plan w (.held : Point ω) aborts failures)
    (hgoing : w.interruptions = 0) (d : Defect) :
    Logged plan (w.breakDown (.broken d)) (.held : Point ω) aborts failures := by
  have hminutes := w.minutes_breakDown (.broken d)
  have hdue : (w.breakDown (.broken d)).run.graceDue = w.run.graceDue :=
    congrArg Minutes.graceDue hminutes
  refine h.of_eq (congrArg Minutes.notes hminutes) (congrArg Minutes.readings hminutes) ?_ ?_
  · rw [World.graces, World.graces, hdue]
  · rw [hgoing]
    rfl

omit [Wait ω] in
/-- The failure of a hook that cannot be logged. -/
theorem recordable_callsOf_eq_nil (snapshot : Snapshot τ) (hundated : ¬ w.CanRecord plan) :
    recordable plan (failuresOf plan.hook (callsOf plan w snapshot)) = [] := by
  rw [failuresOf_callsOf, recordable, List.filter_eq_nil_iff]
  intro thing hthing
  rw [Option.mem_toList, Option.map_eq_some_iff] at hthing
  obtain ⟨f, _, rfl⟩ := hthing
  exact hundated

/-- The grace period comes. -/
theorem Logged.withGrace (h : Logged plan w (.held : Point ω) aborts failures)
    (hdue : w.run.graceDue = true) {line : Note} (hline : World.sleepingLine plan = .ok line)
    (hdated : w.CanRecord plan) {delay : ω} :
    Logged plan (w.withGrace line) (.pausing delay) aborts failures := by
  have hminutes := w.minutes_withGrace line
  have hbegun : (w.withGrace line).hasBegun = w.hasBegun := congrArg Minutes.hasBegun hminutes
  have hgraces : (w.withGrace line).graces = w.graces + 1 := by
    rw [World.graces, World.graces, hdue]
    rfl
  have hinterruptions : (w.withGrace line).interruptions = w.interruptions := by
    rw [World.interruptions, World.interruptions, hbegun]
    rfl
  have hentry : NotesOf plan [(w.now, .grace)] [(w.now, line)] := .single hline hdated
  have hlogged : Logged plan (w.withGrace line) (.pausing delay) aborts (failures ++ []) :=
    h.aside hentry (congrArg Minutes.notes hminutes) (congrArg Minutes.readings hminutes) rfl
      hgraces hinterruptions
  rwa [List.append_nil] at hlogged

/-- The news that a run was aborted comes with a warning. -/
theorem exists_entry_of_abort? {note : Note} {event : Event τ}
    (h : w.abort? plan = some (note, event)) :
    ∃ entry : Entry, entry.note plan = .ok note ∧
      (event.kind = .cancelled ∨ event.kind = .stopped) ∧
      tally [(w.now, entry)] = { aborts := [(w.now, event.kind)] } := by
  rw [World.abort?] at h
  split_ifs at h
  · obtain ⟨rfl, rfl⟩ := Prod.mk.inj (Option.some.inj h)
    exact ⟨.aborted (w.cancellation.deadlineExceeded w.now), rfl, .inl rfl, rfl⟩
  · obtain ⟨rfl, rfl⟩ := Prod.mk.inj (Option.some.inj h)
    exact ⟨.stopped, rfl, .inr rfl, rfl⟩

end Writing

section Moves

variable [Clock τ] [Wait ω] [Spans ω τ] {plan : Plan τ ω} {w w' : World τ ω} {p p' : Point ω}
variable {aborts : List (τ × Event.Kind)} {failures : List (τ × Failure)}

omit [Clock τ] [Wait ω] [Spans ω τ] in
theorem World.interruptions_of_going (h : w.ending? = none) : w.interruptions = 0 := by
  rw [World.interruptions, h]
  rfl

theorem World.Move.ending?_eq_none (h : World.Move plan w p p' w') (hawake : w.AwakeAt p) :
    w.ending? = none := by
  cases p with
  | held =>
      cases hphase : w.run.phase with
      | ended how => exact absurd hphase (h.phase_ne_ended how)
      | _ => rw [World.ending?, hphase]
  | _ => exact hawake.2

omit [Wait ω] [Spans ω τ] in
/-- No record can be made of a result at its instant. -/
theorem tallyOf_of_not_canRecord (number : Nat) (result : Result)
    (hundated : ¬ w.CanRecord plan) : tallyOf plan [⟨w.now, number, result⟩] = {} := by
  have hloggable : (⟨w.now, number, result⟩ : Reading τ).isLoggable plan = false := by
    rw [Reading.isLoggable, Bool.eq_false_iff.mpr hundated, Bool.false_and]
  rw [tallyOf_singleton, Reading.tally_of_not_isLoggable hloggable]

omit [Wait ω] [Spans ω τ] in
theorem tallyOf_cancelled (instant : τ) (number : Nat) :
    tallyOf plan [⟨instant, number, .cancelled⟩] = {} := by
  simp [tallyOf_singleton, Reading.tally, Reading.status?, Reading.trouble?, Reading.outcome,
    outcome]

omit [Spans ω τ] in
/-- A run that breaks because it cannot log something logs none of it. -/
theorem World.Choke.logged {d : Defect} (h : World.Choke plan w p w' d)
    (hposting : Posting plan p w.books) (hgoing : w.interruptions = 0)
    (hlogged : Logged plan w p aborts failures) :
    GoesOn plan w aborts failures (w'.breakDown (.broken d)) .held := by
  cases h with
  | abort reason undated =>
      exact hlogged.still hgoing (w.minutes_breakDown _) rfl rfl rfl rfl
  | @outcome number result seen observed something undated =>
      obtain ⟨_, _, hnewest⟩ := hposting.stage
      exact hlogged.pass hgoing [⟨w.now, number, result⟩] (w.minutes_breakDown _)
        (List.dropLast_append_getLast? _ hnewest).symm
        (tallyOf_of_not_canRecord number result undated) rfl rfl rfl
  | @complaint ticket snapshot phase reply failed undated =>
      have hcalls := congrArg Minutes.calls (w.minutes_callHook plan snapshot)
      have hbroken := congrArg Minutes.calls
        ((w.callHook plan snapshot).minutes_breakDown (.broken .tooLarge))
      have hrun : (w.callHook plan snapshot).run = w.run :=
        congrArg Books.run (w.books_callHook plan snapshot)
      have hgoing' : (w.callHook plan snapshot).interruptions = 0 :=
        World.interruptions_of_going (by rw [World.ending?, hrun, phase])
      refine ⟨callsOf plan w snapshot, hbroken.trans hcalls, ?_⟩
      rw [recordable_callsOf_eq_nil snapshot undated, List.append_nil]
      have hnews : aborts ++ ((w.callHook plan snapshot).breakDown (.broken .tooLarge)).aborting
          (.held : Point ω) = aborts := List.append_nil aborts
      rw [hnews]
      exact (hlogged.callHook snapshot).breakDown hgoing' .tooLarge
  | @grace ticket snapshot d phase reply first cause dated =>
      have hcalls := congrArg Minutes.calls (w.minutes_withHook plan snapshot)
      have hbroken := congrArg Minutes.calls
        ((w.withHook plan snapshot).minutes_breakDown (.broken d))
      have hgoing' : (w.withHook plan snapshot).interruptions = 0 :=
        World.interruptions_of_going (by rw [World.ending?, w.run_withHook, phase])
      refine ⟨callsOf plan w snapshot, hbroken.trans hcalls, ?_⟩
      have hnews : aborts ++ ((w.withHook plan snapshot).breakDown (.broken d)).aborting
          (.held : Point ω) = aborts := List.append_nil aborts
      rw [hnews]
      exact (hlogged.withHook snapshot dated).breakDown hgoing' d
  | interrupt phase killed undated =>
      exact hlogged.still hgoing
        ((World.minutes_breakDown _ _).trans (w.minutes_closeClient plan)) rfl rfl rfl rfl
  | @revoke number undated =>
      obtain ⟨_, _, hnewest⟩ := hposting.stage
      exact hlogged.pass hgoing [⟨w.now, number, .cancelled⟩] (w.minutes_breakDown _)
        (List.dropLast_append_getLast? _ hnewest).symm (tallyOf_cancelled _ _) rfl rfl rfl
  | retract phase answered unsent undenied undated =>
      exact hlogged.still hgoing (w.minutes_breakDown _) rfl rfl rfl rfl
  | leave phase tidy killed undated =>
      exact hlogged.still hgoing (w.minutes_breakDown _) rfl rfl rfl rfl

/-- Whatever a run does, it writes the log that belongs to it. -/
theorem World.Move.logged (h : World.Move plan w p p' w') (hposting : Posting plan p w.books)
    (hawake : w.AwakeAt p) (hlogged : Logged plan w p aborts failures) :
    GoesOn plan w aborts failures w' p' := by
  have hawake' : w'.AwakeAt p' := World.awake_stable h hawake
  have hgoing : w.interruptions = 0 :=
    World.interruptions_of_going (h.ending?_eq_none hawake)
  have hstill {w₁ : World τ ω} (hminutes : w₁.minutes = w.minutes)
      (hbefore : w.reported p = w.readings) (hafter : w₁.reported p' = w₁.readings)
      (hinterruptions : w₁.interruptions = 0) (haborting : w₁.aborting p' = []) :
      GoesOn plan w aborts failures w₁ p' :=
    hlogged.still hgoing hminutes hbefore hafter hinterruptions haborting
  cases h with
  | skip phase killed =>
      have hminutes : ((w.shutWith (World.killedEvent plan)).finish .cancelled).minutes =
          w.minutes := by
        rw [World.minutes_finish, World.minutes_shutWith]
      have hbegun : w.hasBegun = false := by
        rw [World.AwakeAt, phase] at hawake
        exact hawake
      refine hstill hminutes rfl rfl (if_neg fun hcancelled => ?_) rfl
      have hsame : _ = w.hasBegun := congrArg Minutes.hasBegun hminutes
      exact Bool.false_ne_true (hbegun.symm.trans (hsame.symm.trans hcancelled.2))
  | @start line phase alive opening dated =>
      have hstarted := w.minutes_withStart line
      have hentry : NotesOf plan [(w.now, .opening (w.cancellation.describe w.now))]
          [(w.now, line)] := .single opening dated
      refine hlogged.goesOn hgoing hentry [] (by rw [hstarted]) (by rw [hstarted])
        (by rw [hstarted]) ?_ rfl (World.interruptions_of_going hawake'.2)
      rw [List.append_nil]
      exact congrArg Minutes.readings hstarted
  | @mute d phase alive cause =>
      have hmute := (w.withBegin.minutes_finish (.mute d)).trans w.minutes_withBegin
      refine hlogged.goesOn hgoing .nil [] (by rw [hmute]) (by rw [hmute]) ?_ ?_ rfl rfl
      · rw [hmute]
        exact (List.append_nil _).symm
      · rw [List.append_nil]
        exact congrArg Minutes.readings hmute
  | choke cause => exact cause.logged hposting hgoing hlogged
  | @abort note event reason dated =>
      obtain ⟨entry, hnote, hkind, htally⟩ := exists_entry_of_abort? reason
      have hsent : ((w.note note).send event).minutes = _ := w.minutes_note _
      refine hlogged.goesOn hgoing (.single hnote dated) [] (by rw [hsent]) (by rw [hsent])
        (by rw [hsent]) ?_ ?_ rfl
      · rw [List.append_nil]
        exact congrArg Minutes.readings hsent
      · simp only [htally, World.aborting, World.send, if_pos hkind]
        rfl
  | ask noReason =>
      exact hstill (w.minutes_withQuery plan) rfl rfl (World.interruptions_of_going hawake'.2) rfl
  | wait duration => exact hstill rfl rfl rfl rfl rfl
  | atOnce duration => exact hstill rfl rfl rfl hgoing rfl
  | inTime phase alive reached => exact hstill rfl rfl rfl hgoing rfl
  | interrupt phase killed dated =>
      have hbooks := w.books_closeClient plan
      exact hlogged.withFarewell hgoing [] (w.minutes_closeClient plan)
        (congrArg Books.now hbooks) dated (World.awakeAt_of_phase phase rfl hawake).1
        (List.append_nil _).symm rfl
  | @answer number =>
      have hanswered := w.minutes_withAnswer plan number
      refine hlogged.goesOn hgoing .nil [] (by rw [hanswered]) (by rw [hanswered]) ?_ ?_ rfl
        (World.interruptions_of_going hawake'.2)
      · rw [hanswered]
        exact (List.append_nil _).symm
      · have hreadings : (w.withAnswer plan number).readings = _ :=
          congrArg Minutes.readings hanswered
        rw [List.append_nil, World.reported, hreadings, List.dropLast_concat]
        rfl
  | @revoke number dated =>
      obtain ⟨_, _, hnewest⟩ := hposting.stage
      exact hlogged.withFarewell hgoing [⟨w.now, number, .cancelled⟩] rfl rfl dated hawake.1
        (List.dropLast_append_getLast? _ hnewest).symm (tallyOf_cancelled _ _)
  | @fail number result notes d outcome dated =>
      obtain ⟨_, _, hnewest⟩ := hposting.stage
      obtain ⟨entries, hnotes, htally⟩ := World.tells_of_observation number outcome dated
      have hbroken := (World.minutes_breakDown _ (.broken d)).trans (w.minutes_noteAll notes)
      refine hlogged.goesOn hgoing (.map hnotes dated) [⟨w.now, number, result⟩]
        (by rw [hbroken]) (by rw [hbroken]) ?_ ?_ ?_ rfl
      · rw [hbroken]
      · exact (congrArg Minutes.readings hbroken).trans
          (List.dropLast_append_getLast? _ hnewest).symm
      · rw [htally, tallyOf_singleton]
        rfl
  | @publish number result notes event outcome dated =>
      obtain ⟨_, _, hnewest⟩ := hposting.stage
      have hkind := kind_of_outcome (outcome_of_observation number outcome)
      obtain ⟨entries, hnotes, htally⟩ := World.tells_of_observation number outcome dated
      have hsent : ((w.noteAll notes).send event).minutes = _ := w.minutes_noteAll _
      refine hlogged.goesOn hgoing (.map hnotes dated) [⟨w.now, number, result⟩]
        (by rw [hsent]) (by rw [hsent]) ?_ ?_ ?_ rfl
      · rw [hsent]
      · exact (congrArg Minutes.readings hsent).trans
          (List.dropLast_append_getLast? _ hnewest).symm
      · simp only [htally, tallyOf_singleton, World.aborting, World.send,
          if_neg (not_or.mpr hkind)]
        rfl
  | finish phase reply terminal =>
      exact hstill (by rw [World.minutes_finish, World.minutes_shut]) rfl rfl rfl rfl
  | @grace ticket snapshot line phase reply first sleeping dated =>
      have hcalls := congrArg Minutes.calls (w.minutes_withHook plan snapshot)
      have hgraced := congrArg Minutes.calls ((w.withHook plan snapshot).minutes_withGrace line)
      have hnow : (w.withHook plan snapshot).CanRecord plan :=
        (World.canRecord_congr plan (by simp [World.withHook])).mpr dated
      have haborts : aborts ++ ((w.withHook plan snapshot).withGrace line).aborting
          (.pausing plan.config.grace) = aborts := List.append_nil aborts
      refine ⟨callsOf plan w snapshot, hgraced.trans hcalls, ?_⟩
      rw [haborts]
      exact (hlogged.withHook snapshot (.inr dated)).withGrace first sleeping hnow
  | @progress ticket snapshot phase reply later dated =>
      have hcalls := congrArg Minutes.calls (w.minutes_withHook plan snapshot)
      have haborts : aborts ++ (w.withHook plan snapshot).aborting
          (.pausing plan.config.pollInterval) = aborts := List.append_nil aborts
      refine ⟨callsOf plan w snapshot, hcalls, ?_⟩
      rw [haborts]
      exact hlogged.withHook snapshot dated
  | retry phase reply terminal noSnapshot => exact hstill rfl rfl rfl hgoing rfl
  | refuse phase reply => exact hstill (w.minutes_breakDown _) rfl rfl rfl rfl
  | retract phase answered unsent undenied dated =>
      exact hlogged.withFarewell hgoing [] rfl rfl dated
        (World.awakeAt_of_phase phase rfl hawake).1 (List.append_nil _).symm rfl
  | sleep positive length =>
      exact hstill (by rw [World.minutes_goTo, World.minutes_withPause]) rfl rfl rfl rfl
  | overrun positive length =>
      exact hstill (by rw [World.minutes_goTo, World.minutes_dismissHelpers,
        World.minutes_withPause]) rfl rfl rfl rfl
  | hurry positive =>
      exact hstill (w.minutes_record_paused _) rfl rfl (World.interruptions_of_going hawake'.2) rfl
  | wake phase reason => exact hstill rfl rfl rfl rfl rfl
  | leave phase tidy killed dated =>
      exact hlogged.withFarewell hgoing [] rfl rfl dated
        (World.awakeAt_of_phase phase rfl hawake).1 (List.append_nil _).symm rfl
  | collapse phase tidy alive => exact hstill (w.minutes_breakDown _) rfl rfl rfl rfl
  | rise phase tidy alive => exact hstill rfl rfl rfl hgoing rfl

/-! ### Steps of the run -/

/-- What the run has on its way to the stream is not answered yet. -/
def World.Unanswered (w : World τ ω) : Prop :=
  ∀ ticket event, w.run.phase = .sending ticket event → w.traffic.replyTo? (.run ticket) = none

theorem World.Move.unanswered (h : World.Move plan w p .held w')
    (hposting : Posting plan p w.books) : w'.Unanswered := by
  have hfresh : w.traffic.replyTo? (.run w.run.sends) = none := hposting.fresh _ (Nat.le_refl _)
  have hsent {w₁ : World τ ω} (hbooks : w₁.books = w.books) (event : Event τ) :
      (w₁.send event).Unanswered := by
    have htraffic : w₁.traffic = w.traffic := congrArg Books.traffic hbooks
    have hrun : w₁.run = w.run := congrArg Books.run hbooks
    rintro ticket event' hphase
    obtain ⟨rfl, _⟩ := Phase.sending.inj hphase
    rw [Traffic.replyTo?_of_finished_eq (w₁.send_finished event), htraffic, hrun, hfresh]
  cases h with
  | @abort note event reason _ => exact hsent (w.books_note note) event
  | @publish number result notes event outcome _ => exact hsent (w.books_noteAll notes) event
  -- elsewhere the run is not about to send
  | _ => rintro ticket event hphase; cases hphase

/-- A run that waits for an answer makes no move. -/
theorem World.Move.aborting_eq_nil (h : World.Move plan w p p' w')
    (hwaits : p = .held → w.Unanswered) : w.aborting p = [] := by
  cases p with
  | held =>
      cases hphase : w.run.phase with
      | sending ticket event =>
          have hnone := hwaits rfl ticket event hphase
          cases h with
          | choke cause => cases cause <;> simp_all
          | _ => simp_all
      | _ => rw [World.aborting, hphase]
  | _ => rfl

omit [Clock τ] [Wait ω] [Spans ω τ] in
theorem failuresOf_append (hook : Option (Snapshot τ → Reaction))
    (calls calls' : List (τ × Snapshot τ)) :
    failuresOf hook (calls ++ calls') = failuresOf hook calls ++ failuresOf hook calls' :=
  List.filterMap_append

omit [Wait ω] [Spans ω τ] in
theorem recordable_append {α : Type} (plan : Plan τ ω) (things things' : List (τ × α)) :
    recordable plan (things ++ things') = recordable plan things ++ recordable plan things' :=
  List.filter_append ..

/-- A whole step of the run writes the log that belongs to it. -/
theorem Logged.stepRun (h : Logged plan w (.held : Point ω) aborts failures)
    (hposting : Posting plan (.held : Point ω) w.books) (hawake : w.AwakeAt (.held : Point ω))
    (hgo : w.runCanGo = true) : GoesOn plan w aborts failures (w.stepRun plan) .held := by
  have hstable : World.Stable plan fun p w₁ => Posting plan p w₁.books ∧ w₁.AwakeAt p ∧
      (p = .held → w₁.Unanswered) ∧ GoesOn plan w aborts failures w₁ p := by
    rintro w₁ p p' w₂ hmove ⟨hposting₁, hawake₁, hwaits, calls, hcalls, hlogged⟩
    refine ⟨posting_stable hmove hposting₁, World.awake_stable hmove hawake₁, ?_, ?_⟩
    · rintro rfl
      exact hmove.unanswered hposting₁
    · rw [hmove.aborting_eq_nil hwaits, List.append_nil] at hlogged
      obtain ⟨calls', hcalls', hlogged'⟩ := hmove.logged hposting₁ hawake₁ hlogged
      refine ⟨calls ++ calls', by rw [hcalls', hcalls, List.append_assoc], ?_⟩
      rwa [failuresOf_append, recordable_append, ← List.append_assoc]
  refine (hstable.stepRun_of_first hgo fun p w₁ hmove => ?_).2.2.2
  refine ⟨posting_stable hmove hposting, World.awake_stable hmove hawake, ?_,
    hmove.logged hposting hawake h⟩
  rintro rfl
  exact hmove.unanswered hposting

/-! ### Everything that can happen -/

omit [Clock τ] [Wait ω] [Spans ω τ] in
theorem World.minutes_kill (w : World τ ω) : w.kill.minutes = w.minutes := by
  rw [World.kill]
  split <;> rfl

/-- Nobody but the run writes the log. -/
theorem World.Acts.minutes_eq {action : Action τ} (h : World.Acts plan w action w')
    (hother : action ≠ .run) : w'.minutes = w.minutes := by
  cases h with
  | run _ => exact absurd rfl hother
  | @trigger t => exact w.minutes_trigger t
  | kill _ => exact w.minutes_kill
  | _ => rfl

theorem Logged.elsewhere {action : Action τ} (h : Logged plan w (.held : Point ω) aborts failures)
    (hacts : World.Acts plan w action w') (hother : action ≠ .run) :
    Logged plan w' (.held : Point ω) aborts failures := by
  have hminutes := hacts.minutes_eq hother
  have hbegun : w'.hasBegun = w.hasBegun := congrArg Minutes.hasBegun hminutes
  have hdue : w'.run.graceDue = w.run.graceDue := congrArg Minutes.graceDue hminutes
  have hgraces : w'.graces = w.graces := by rw [World.graces, World.graces, hdue]
  have hinterruptions : w'.interruptions = w.interruptions := by
    rw [World.interruptions, World.interruptions, World.ending?, World.ending?,
      hacts.phase_eq hother, hbegun]
  have hnotes : w'.notes = w.notes ++ [] :=
    (congrArg Minutes.notes hminutes).trans (List.append_nil _).symm
  have hlogged : Logged plan w' (.held : Point ω) aborts (failures ++ []) :=
    h.aside .nil hnotes (congrArg Minutes.readings hminutes) rfl hgraces hinterruptions
  rwa [List.append_nil] at hlogged

theorem World.AwakeAt.act {action : Action τ} (h : w.AwakeAt (.held : Point ω))
    (hact : w.act? plan action = some w') : w'.AwakeAt (.held : Point ω) := by
  have hacts := World.acts_of_act? hact
  by_cases hrun : action = .run
  · subst hrun
    cases hacts with
    | run go => exact World.awake_stable.stepRun go h
  · have hbegun : w'.hasBegun = w.hasBegun := congrArg Minutes.hasBegun (hacts.minutes_eq hrun)
    rw [World.AwakeAt, hacts.phase_eq hrun, hbegun]
    exact h

namespace World

/-- The aborts of a run that an action brings about. -/
def abortsBy (w' : World τ ω) : Action τ → List (τ × Event.Kind)
  | .run => w'.aborting (.held : Point ω)
  | _ => []

/-- The aborts of a run in the course of some turns, with instants and in order. -/
def abortsIn (plan : Plan τ ω) (w : World τ ω) : List (Turn τ) → List (τ × Event.Kind)
  | [] => []
  | turn :: turns =>
      match w.act? (plan.hooked turn.hook) turn.action with
      | some w' => w'.abortsBy turn.action ++ w'.abortsIn plan turns
      | none => []

/-- The failures of the hook in the course of some turns, with instants and in order. -/
def hookFailuresIn (plan : Plan τ ω) (w : World τ ω) : List (Turn τ) → List (τ × Failure)
  | [] => []
  | turn :: turns =>
      match w.act? (plan.hooked turn.hook) turn.action with
      | some w' =>
          failuresOf turn.hook (w'.hookCalls.drop w.hookCalls.length) ++
            w'.hookFailuresIn plan turns
      | none => []

end World

theorem Logged.act {action : Action τ} (h : Logged plan w (.held : Point ω) aborts failures)
    (hposting : Posting plan (.held : Point ω) w.books) (hawake : w.AwakeAt (.held : Point ω))
    (hact : w.act? plan action = some w') :
    Logged plan w' (.held : Point ω) (aborts ++ w'.abortsBy action)
      (failures ++
        recordable plan (failuresOf plan.hook (w'.hookCalls.drop w.hookCalls.length))) := by
  have hacts := World.acts_of_act? hact
  by_cases hrun : action = .run
  · subst hrun
    cases hacts with
    | run go =>
        obtain ⟨calls, hcalls, hlogged⟩ := h.stepRun hposting hawake go
        rwa [hcalls, List.drop_left]
  · have hcalls : w'.hookCalls = w.hookCalls := congrArg Minutes.calls (hacts.minutes_eq hrun)
    have haborts : w'.abortsBy action = [] := by
      cases action with
      | run => exact absurd rfl hrun
      | _ => rfl
    have hfailures : recordable plan
        (failuresOf plan.hook (w'.hookCalls.drop w.hookCalls.length)) = [] := by
      rw [hcalls, List.drop_length]
      rfl
    rw [haborts, hfailures, List.append_nil, List.append_nil]
    exact h.elsewhere hacts hrun

omit [Spans ω τ] in
theorem logged_hooked (hook : Option (Snapshot τ → Reaction)) :
    Logged (plan.hooked hook) w p aborts failures ↔ Logged plan w p aborts failures := by
  have hreads (e : τ × Entry) (n : τ × Note) :
      Entry.Reads (plan.hooked hook) e n ↔ Entry.Reads plan e n :=
    ⟨fun h => ⟨h.instant, h.note, h.dated⟩, fun h => ⟨h.instant, h.note, h.dated⟩⟩
  refine exists_congr fun entries => and_congr_left' ?_
  exact ⟨.imp fun e n => (hreads e n).mp, .imp fun e n => (hreads e n).mpr⟩

/-- Whatever happens, and whatever the hook is, the log goes with it. -/
theorem Logged.takeAll {turns : List (Turn τ)}
    (h : Logged plan w (.held : Point ω) aborts failures)
    (hposting : Posting plan (.held : Point ω) w.books) (hawake : w.AwakeAt (.held : Point ω))
    (htake : w.takeAll? plan turns = some w') :
    Logged plan w' (.held : Point ω) (aborts ++ w.abortsIn plan turns)
      (failures ++ recordable plan (w.hookFailuresIn plan turns)) := by
  induction turns generalizing w aborts failures with
  | nil =>
      cases htake
      have hnone : recordable plan (World.hookFailuresIn plan w' []) = [] := rfl
      rwa [World.abortsIn, hnone, List.append_nil, List.append_nil]
  | cons turn turns ih =>
      obtain ⟨middle, hmiddle, htake⟩ := World.exists_of_takeAll?_cons htake
      have hposting' := (posting_hooked turn.hook).mpr hposting
      have hbefore := (logged_hooked turn.hook).mpr h
      have hlogged : Logged plan middle (.held : Point ω) (aborts ++ middle.abortsBy turn.action)
          (failures ++
            recordable plan (failuresOf turn.hook (middle.hookCalls.drop w.hookCalls.length))) :=
        (logged_hooked turn.hook).mp (hbefore.act hposting' hawake hmiddle)
      have hrest := ih hlogged ((posting_hooked turn.hook).mp
        (posting_invariant.act trivial hmiddle hposting')) (hawake.act hmiddle) htake
      rwa [World.abortsIn, World.hookFailuresIn, hmiddle, recordable_append,
        ← List.append_assoc, ← List.append_assoc]

/-! ### What the log does not tell -/

namespace World

/-- The log could tell of all readings, or the run broke at the last one. -/
def Told (plan : Plan τ ω) (w : World τ ω) (p : Point ω) : Prop :=
  (∀ r ∈ w.reported p, r.isLoggable plan = true) ∨
    (∃ d, w.ending? = some (.broken d)) ∧ ∀ r ∈ w.readings.dropLast, r.isLoggable plan = true

omit [Wait ω] [Spans ω τ] in
theorem isLoggable_of_observation {result : Result} {notes : List Note} {event : Event τ}
    (number : Nat) (hseen : w.observation plan result = some (notes, .ok event))
    (hdated : notes = [] ∨ w.CanRecord plan) :
    (⟨w.now, number, result⟩ : Reading τ).isLoggable plan = true := by
  cases result with
  | cancelled => cases hseen
  | failure f => exact isLoggable_of_observeFailure number (Option.some.inj hseen) hdated
  | payload payload => exact isLoggable_of_observePayload number (Option.some.inj hseen) hdated

theorem Move.told (h : Move plan w p p' w') (hposting : Posting plan p w.books)
    (hawake : w.AwakeAt p) (htold : w.Told plan p) : w'.Told plan p' := by
  have hall : ∀ r ∈ w.reported p, r.isLoggable plan = true := by
    rcases htold with hall | ⟨⟨d, hbroken⟩, _⟩
    · exact hall
    · rw [h.ending?_eq_none hawake] at hbroken
      cases hbroken
  -- most moves read nothing
  have hstill {w₁ : World τ ω} (hreadings : w₁.minutes.readings = w.minutes.readings)
      (hbefore : w.reported p = w.readings) (hafter : w₁.reported p' = w₁.readings) :
      w₁.Told plan p' := by
    have hreadings : w₁.readings = w.readings := hreadings
    refine .inl ?_
    rwa [hafter, hreadings, ← hbefore]
  -- others are about the newest reading
  have hnewest {number : Nat} {result : Result} {w₁ : World τ ω}
      (hreadings : w₁.minutes.readings = w.minutes.readings)
      (hlast : w.readings.getLast? = some ⟨w.now, number, result⟩)
      (hbefore : w.reported p = w.readings.dropLast) (hafter : w₁.reported p' = w₁.readings)
      (hloggable : (⟨w.now, number, result⟩ : Reading τ).isLoggable plan = true) :
      w₁.Told plan p' := by
    have hreadings : w₁.readings = w.readings := hreadings
    rw [hbefore] at hall
    refine .inl ?_
    rw [hafter, hreadings, ← List.dropLast_append_getLast? _ hlast]
    exact List.forall_mem_append.mpr ⟨hall, by simpa using hloggable⟩
  have hbroken {w₁ : World τ ω} {d : Defect} (hreadings : w₁.minutes.readings = w.minutes.readings)
      (hbefore : w.reported p = w.readings.dropLast) :
      (w₁.breakDown (.broken d)).Told plan p' := by
    have hreadings : (w₁.breakDown (.broken d)).readings = w.readings :=
      (congrArg Minutes.readings (w₁.minutes_breakDown _)).trans hreadings
    refine .inr ⟨⟨d, rfl⟩, ?_⟩
    rwa [hreadings, ← hbefore]
  cases h with
  | skip phase killed => exact hstill (by rw [minutes_finish, minutes_shutWith]) rfl rfl
  | @start line phase alive opening dated => exact hstill (by rw [minutes_withStart]) rfl rfl
  | mute phase alive cause => exact hstill (by rw [minutes_finish, minutes_withBegin]) rfl rfl
  | choke cause =>
      cases cause with
      | abort _ _ => exact hstill (by rw [minutes_breakDown]) rfl rfl
      | outcome _ _ _ => exact hbroken rfl rfl
      | complaint _ _ _ _ => exact hstill (by rw [minutes_breakDown, minutes_callHook]) rfl rfl
      | grace _ _ _ _ _ => exact hstill (by rw [minutes_breakDown, minutes_withHook]) rfl rfl
      | interrupt _ _ _ => exact hstill (by rw [minutes_breakDown, minutes_closeClient]) rfl rfl
      | revoke _ => exact hbroken rfl rfl
      | retract _ _ _ _ _ => exact hstill (by rw [minutes_breakDown]) rfl rfl
      | leave _ _ _ _ => exact hstill (by rw [minutes_breakDown]) rfl rfl
  | abort reason dated => exact hstill (by rw [minutes_send, minutes_note]) rfl rfl
  | ask noReason => exact hstill (by rw [minutes_withQuery]) rfl rfl
  | wait duration => exact hstill rfl rfl rfl
  | atOnce duration => exact hstill rfl rfl rfl
  | inTime phase alive reached => exact hstill rfl rfl rfl
  | interrupt phase killed dated =>
      have hclosed : (w.closeClient plan).minutes = w.minutes := w.minutes_closeClient plan
      exact hstill (by rw [minutes_withFarewell, hclosed]) rfl rfl
  | @answer number =>
      have hreadings : (w.withAnswer plan number).readings = w.readings ++ [_] :=
        congrArg Minutes.readings (w.minutes_withAnswer plan number)
      refine .inl ?_
      rwa [reported, hreadings, List.dropLast_concat]
  | @revoke number dated =>
      obtain ⟨_, _, hlast⟩ := hposting.stage
      refine hnewest (by rw [minutes_withFarewell]) hlast rfl rfl ?_
      rw [Reading.isLoggable, Bool.and_true]
      exact dated
  | fail outcome dated => exact hbroken (by rw [minutes_noteAll]) rfl
  | @publish number result notes event outcome dated =>
      obtain ⟨_, _, hlast⟩ := hposting.stage
      exact hnewest (by rw [minutes_send, minutes_noteAll]) hlast rfl rfl
        (isLoggable_of_observation number outcome dated)
  | finish phase reply terminal => exact hstill (by rw [minutes_finish, minutes_shut]) rfl rfl
  | @grace ticket snapshot line phase reply first sleeping dated =>
      exact hstill (by rw [minutes_withGrace, minutes_withHook]) rfl rfl
  | progress phase reply later dated => exact hstill (by rw [minutes_withHook]) rfl rfl
  | retry phase reply terminal noSnapshot => exact hstill rfl rfl rfl
  | refuse phase reply => exact hstill (by rw [minutes_breakDown]) rfl rfl
  | retract phase answered unsent undenied dated =>
      exact hstill (by rw [minutes_withFarewell]) rfl rfl
  | sleep positive length => exact hstill (by rw [minutes_goTo, minutes_withPause]) rfl rfl
  | overrun positive length =>
      exact hstill (by rw [minutes_goTo, minutes_dismissHelpers, minutes_withPause]) rfl rfl
  | hurry positive => exact hstill (by rw [minutes_record_paused]) rfl rfl
  | wake phase reason => exact hstill rfl rfl rfl
  | leave phase tidy killed dated => exact hstill (by rw [minutes_withFarewell]) rfl rfl
  | collapse phase tidy alive => exact hstill (by rw [minutes_breakDown]) rfl rfl
  | rise phase tidy alive => exact hstill rfl rfl rfl

theorem Told.act {action : Action τ} (h : w.Told plan (.held : Point ω))
    (hposting : Posting plan (.held : Point ω) w.books) (hawake : w.AwakeAt (.held : Point ω))
    (hact : w.act? plan action = some w') : w'.Told plan (.held : Point ω) := by
  have hacts := acts_of_act? hact
  by_cases hrun : action = .run
  · subst hrun
    cases hacts with
    | run go =>
        have hstable : Stable plan fun p w => Posting plan p w.books ∧ w.AwakeAt p ∧
            w.Told plan p := fun w p p' w' hmove ⟨hposting, hawake, htold⟩ =>
          ⟨posting_stable hmove hposting, awake_stable hmove hawake,
            hmove.told hposting hawake htold⟩
        exact (hstable.stepRun go ⟨hposting, hawake, h⟩).2.2
  · have hreadings : w'.readings = w.readings :=
      congrArg Minutes.readings (hacts.minutes_eq hrun)
    have hending : w'.ending? = w.ending? := by rw [ending?, ending?, hacts.phase_eq hrun]
    have hreported : w'.reported (.held : Point ω) = w.reported (.held : Point ω) := hreadings
    rw [Told, hreported, hreadings, hending]
    exact h

/-- Whatever happens, and whatever the hook is, the log misses no reading but one at which the run
breaks. -/
theorem Told.takeAll {turns : List (Turn τ)} (h : w.Told plan (.held : Point ω))
    (hposting : Posting plan (.held : Point ω) w.books) (hawake : w.AwakeAt (.held : Point ω))
    (htake : w.takeAll? plan turns = some w') : w'.Told plan (.held : Point ω) := by
  induction turns generalizing w with
  | nil =>
      cases htake
      exact h
  | cons turn turns ih =>
      obtain ⟨middle, hmiddle, htake⟩ := exists_of_takeAll?_cons htake
      have hposting' := (posting_hooked turn.hook).mpr hposting
      have hbefore : w.Told (plan.hooked turn.hook) (.held : Point ω) := h
      exact ih (hbefore.act hposting' hawake hmiddle)
        ((posting_hooked turn.hook).mp (posting_invariant.act trivial hmiddle hposting'))
        (hawake.act hmiddle) htake

end World

/-! ### A run is aborted once -/

/-- The run is about to end, or it is over. -/
def World.Departing (w : World τ ω) : Prop :=
  match w.run.phase with
  | .sending _ event => event.isTerminal = true
  | .ended _ => True
  | _ => False

omit [Clock τ] [Wait ω] [Spans ω τ] in
theorem World.aborting_length_le (w : World τ ω) :
    (w.aborting (.held : Point ω)).length ≤ 1 := by
  rw [World.aborting]
  split
  · split_ifs <;> simp
  · simp

omit [Clock τ] [Wait ω] [Spans ω τ] in
theorem World.departing_of_aborting (h : w.aborting (.held : Point ω) ≠ []) : w.Departing := by
  rw [World.aborting] at h
  rw [World.Departing]
  split at h
  · rename_i ticket event hphase
    rw [hphase]
    split_ifs at h with hkind
    · change event.kind.isTerminal = true
      rcases hkind with hkind | hkind <;> rw [hkind] <;> rfl
    · exact absurd rfl h
  · exact absurd rfl h

/-- What a run that is about to end does next is to end. -/
theorem World.Departing.stepRun (plan : Plan τ ω) (h : w.Departing) (hgo : w.runCanGo = true) :
    ∃ how, (w.stepRun plan).run.phase = .ended how := by
  rw [World.Departing] at h
  rw [World.runCanGo] at hgo
  cases hphase : w.run.phase with
  | ended how =>
      rw [hphase] at hgo
      cases hgo
  | sending ticket event =>
      simp only [hphase] at h hgo
      simp only [World.stepRun, hphase]
      split
      · unfold World.afterSend
        rw [if_pos h]
        exact ⟨_, rfl⟩
      · exact ⟨_, rfl⟩
      · exact World.unwind_cases (motive := fun w' => ∃ how, w'.run.phase = .ended how)
          (fun _ => ⟨_, rfl⟩) fun _ => ⟨_, rfl⟩
      · rename_i hnone
        rw [hnone] at hgo
        cases hgo
  | _ => rw [hphase] at h; exact h.elim

theorem World.Departing.act {action : Action τ} (h : w.Departing)
    (hact : w.act? plan action = some w') : w'.Departing ∧ w'.abortsBy action = [] := by
  have hacts := World.acts_of_act? hact
  by_cases hrun : action = .run
  · subst hrun
    cases hacts with
    | run go =>
        obtain ⟨how, hphase⟩ := h.stepRun plan go
        rw [World.Departing, World.abortsBy, World.aborting, hphase]
        exact ⟨trivial, rfl⟩
  · rw [World.Departing, hacts.phase_eq hrun]
    refine ⟨h, ?_⟩
    cases action with
    | run => exact absurd rfl hrun
    | _ => rfl

theorem World.Departing.abortsIn_eq_nil {turns : List (Turn τ)} (h : w.Departing) :
    w.abortsIn plan turns = [] := by
  induction turns generalizing w with
  | nil => rfl
  | cons turn turns ih =>
      rw [World.abortsIn]
      split
      · rename_i middle hmiddle
        obtain ⟨hdeparting, hnone⟩ := h.act hmiddle
        rw [hnone, ih hdeparting, List.append_nil]
      · rfl

/-- A run is aborted at most once. -/
theorem World.abortsIn_length_le (plan : Plan τ ω) (w : World τ ω) (turns : List (Turn τ)) :
    (w.abortsIn plan turns).length ≤ 1 := by
  induction turns generalizing w with
  | nil => exact Nat.zero_le 1
  | cons turn turns ih =>
      rw [World.abortsIn]
      split
      · rename_i middle hmiddle
        rw [List.length_append]
        by_cases hnone : middle.abortsBy turn.action = []
        · rw [hnone, List.length_nil, Nat.zero_add]
          exact ih middle
        · have hrun : turn.action = .run := by
            cases haction : turn.action with
            | run => rfl
            | _ => rw [haction] at hnone; exact absurd rfl hnone
          rw [hrun] at hnone ⊢
          rw [(World.departing_of_aborting hnone).abortsIn_eq_nil, List.length_nil, Nat.add_zero]
          exact middle.aborting_length_le
      · exact Nat.zero_le 1

end Moves

end Vigil.Watch
