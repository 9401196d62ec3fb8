import Vigil.Proofs.Value.Spelling
import Vigil.Proofs.Watch.Books

/-!
# What a note is about

A note is a line of text, and a description or a status may read like any such line.  So what a note
is about is not read off its words: it is known where the run logs it.  Here each note is the text
of an entry, and an entry says what its note is about.  An entry whose text cannot be written has no
note, and none has one at an instant at which no record can be made.  The tally of some entries is
all that counts of them: which statuses were shown, of what the log warned, and how often.
-/

namespace Vigil.Watch

open Log (Level Note)

variable {τ ω α : Type}

/-- What a note of a run is about. -/
inductive Entry where
  | opening (timeLeft : String)
  | poll (status : Value) (fields : List (String × String)) (ago timeLeft : String)
  | reached (status : Value)
  | gone (cause : Failure)
  | queryFailed (f : Failure)
  | emptyResponse
  | vanished (cause : Failure)
  | failed (status : Value)
  | aborted (exceeded : Bool)
  | stopped
  | grace
  | hookFailed (f : Failure)
  | cancelled

namespace Entry

/-- The note of an entry, unless its text cannot be written. -/
def note [Wait ω] (plan : Plan τ ω) : Entry → Except Defect Note
  | opening timeLeft => do
      return .info ("Polling " ++ plan.strategy.description ++ " (initial wait " ++
        (← Wait.text plan.config.initialWait) ++ "s, interval " ++
        (← Wait.text plan.config.pollInterval) ++ "s, time left " ++ timeLeft ++ ")")
  | poll status fields ago timeLeft => do
      return .info ("Poll | status=" ++ (← status.shown) ++
        String.join (fields.map fun (key, text) => " | " ++ key ++ "=" ++ text) ++
        " | started " ++ ago ++ "s ago | time left " ++ timeLeft)
  | reached status => do
      return .info ("Desired " ++ plan.strategy.description ++ " status reached: " ++
        (← status.shown))
  | gone cause => do
      return .info (plan.strategy.description ++ " already gone as desired: " ++ (← cause.text))
  | queryFailed f => do
      return .warning ("Query failed; retrying: " ++ f.kind ++ ": " ++ (← f.text))
  | emptyResponse => .ok (.warning "Expected non-empty response; retrying")
  | vanished cause => do
      return .warning (plan.strategy.description ++ " does not exist; aborting: " ++
        (← cause.text))
  | failed status => do
      return .warning (plan.strategy.description ++ " reached failure status " ++
        (← status.shown))
  | aborted exceeded =>
      .ok (.warning ("Wait aborted (" ++
        (if exceeded then "deadline exceeded" else "cancelled") ++ ")"))
  | stopped => .ok (.warning "Wait stopped")
  | grace => World.sleepingLine plan
  | hookFailed f => .ok ⟨.error, "Tick hook failed; continuing", some f⟩
  | cancelled => .ok (.warning "Poll task cancelled")

/-- The level that an entry is logged at. -/
def level : Entry → Level
  | queryFailed _ => .warning
  | emptyResponse => .warning
  | vanished _ => .warning
  | failed _ => .warning
  | aborted _ => .warning
  | stopped => .warning
  | cancelled => .warning
  | hookFailed _ => .error
  | _ => .info

/-- The status that a line about a payload shows. -/
def status? : Entry → Option Value
  | poll status _ _ _ => some status
  | _ => none

/-- The kind of the event that a warning about a query goes with. -/
def trouble? : Entry → Option Event.Kind
  | queryFailed _ => some .queryError
  | emptyResponse => some .emptyResponse
  | vanished _ => some .notFound
  | failed _ => some .failed
  | _ => none

/-- The kind of the event that a warning about an abort goes with. -/
def abort? : Entry → Option Event.Kind
  | aborted _ => some .cancelled
  | stopped => some .stopped
  | _ => none

/-- The failure of a hook. -/
def hookFailure? : Entry → Option Failure
  | hookFailed f => some f
  | _ => none

def isGrace : Entry → Bool
  | grace => true
  | _ => false

def isCancelled : Entry → Bool
  | cancelled => true
  | _ => false

section Level

variable [Wait ω] {plan : Plan τ ω} {entry : Entry} {n : Note}

theorem level_of_note (h : entry.note plan = .ok n) : n.level = entry.level := by
  cases entry with
  | opening timeLeft =>
      simp only [note, bind_eq_ok_iff] at h
      obtain ⟨_, _, _, _, h⟩ := h
      cases h
      rfl
  | poll | reached | gone | queryFailed | vanished | failed | grace =>
      simp only [note, World.sleepingLine, bind_eq_ok_iff] at h
      obtain ⟨_, _, h⟩ := h
      cases h
      rfl
  | _ =>
      cases h
      rfl

/-- Nothing is logged below the level of information. -/
theorem info_le_level (h : entry.note plan = .ok n) : Level.info.rank ≤ n.level.rank := by
  rw [level_of_note h]
  cases entry <;> simp [level, Level.info, Level.warning, Level.error]

end Level

end Entry

section Reads

variable [Clock τ] [Wait ω]

/-- A note is that of an entry, and a record can be made of it at its instant. -/
structure Entry.Reads (plan : Plan τ ω) (e : τ × Entry) (n : τ × Note) : Prop where
  instant : e.1 = n.1
  note : e.2.note plan = .ok n.2
  dated : Log.canRecord plan.heard e.1 = true

/-- The notes are those of the entries, one by one. -/
def NotesOf (plan : Plan τ ω) (entries : List (τ × Entry)) (notes : List (τ × Note)) : Prop :=
  List.Forall₂ (Entry.Reads plan) entries notes

variable {plan : Plan τ ω}

theorem NotesOf.append {entries entries' : List (τ × Entry)} {notes notes' : List (τ × Note)}
    (h : NotesOf plan entries notes) (h' : NotesOf plan entries' notes') :
    NotesOf plan (entries ++ entries') (notes ++ notes') := List.rel_append h h'

theorem NotesOf.single {instant : τ} {entry : Entry} {n : Note} (h : entry.note plan = .ok n)
    (hdated : Log.canRecord plan.heard instant = true) :
    NotesOf plan [(instant, entry)] [(instant, n)] := .cons ⟨rfl, h, hdated⟩ .nil

/-- Notes that are all logged at one instant. -/
theorem NotesOf.map {instant : τ} {entries : List Entry} {notes : List Note}
    (h : List.Forall₂ (fun entry n => entry.note plan = .ok n) entries notes)
    (hdated : notes = [] ∨ Log.canRecord plan.heard instant = true) :
    NotesOf plan (entries.map (instant, ·)) (notes.map (instant, ·)) := by
  induction h with
  | nil => exact .nil
  | @cons entry n entries notes hfirst _ ih =>
      have hcan := hdated.resolve_left (List.cons_ne_nil n notes)
      exact .cons ⟨rfl, hfirst, hcan⟩ (ih (.inr hcan))

end Reads

/-! ### Tallies -/

/-- What some entries tell about one matter, with instants. -/
def sift (about : Entry → Option α) (entries : List (τ × Entry)) : List (τ × α) :=
  entries.filterMap fun (instant, entry) => (about entry).map (instant, ·)

/-- What counts of some entries. -/
structure Tally (τ : Type) where
  statuses : List (τ × Value) := []
  troubles : List (τ × Event.Kind) := []
  aborts : List (τ × Event.Kind) := []
  hookFailures : List (τ × Failure) := []
  graces : Nat := 0
  cancellations : Nat := 0

/-- The tally of some entries. -/
def tally (entries : List (τ × Entry)) : Tally τ where
  statuses := sift Entry.status? entries
  troubles := sift Entry.trouble? entries
  aborts := sift Entry.abort? entries
  hookFailures := sift Entry.hookFailure? entries
  graces := entries.countP (·.2.isGrace)
  cancellations := entries.countP (·.2.isCancelled)

/-- The tally of some entries and of others that come after them. -/
instance : Add (Tally τ) where
  add a b :=
    { statuses := a.statuses ++ b.statuses
      troubles := a.troubles ++ b.troubles
      aborts := a.aborts ++ b.aborts
      hookFailures := a.hookFailures ++ b.hookFailures
      graces := a.graces + b.graces
      cancellations := a.cancellations + b.cancellations }

theorem tally_append (entries entries' : List (τ × Entry)) :
    tally (entries ++ entries') = tally entries + tally entries' := by
  simp only [tally, sift, List.filterMap_append, List.countP_append]
  rfl

/-! ### What the log says of a result -/

/-- The kind of an event that is bad news. -/
def badNews? (event : Event τ) : Option Event.Kind := event.failure?.map fun _ => event.kind

/-- No callback of the strategy raises when a result is read. -/
def Strategy.Answers (strategy : Strategy) : Result → Prop
  | .failure f => ∃ gone, strategy.isAbsent f = .ok gone
  | .payload payload => payload.truthy = true →
      (∃ status, strategy.statusOf payload = .ok status) ∧
        ∃ fields, strategy.logFields payload = .ok fields
  | .cancelled => True

section Reading

variable [Clock τ]

namespace Reading

/-- The status that a query found, if it returned a payload with something in it, at an instant that
the calendar can show. -/
def status? (plan : Plan τ ω) (r : Reading τ) : Option (τ × Value) :=
  match r.result with
  | .payload payload =>
      if payload.truthy && (Clock.stamp? r.instant).isSome then
        (plan.strategy.statusOf payload).toOption.map (r.instant, ·)
      else none
  | _ => none

/-- The kind of the event that follows from a reading, if it is bad news. -/
def trouble? (plan : Plan τ ω) (r : Reading τ) : Option (τ × Event.Kind) :=
  (r.outcome plan).bind fun event => (badNews? event).map (r.instant, ·)

/-- Whatever the log shows of a payload besides its status can be read. -/
def isLegible (plan : Plan τ ω) (r : Reading τ) : Bool :=
  match r.result with
  | .payload payload => !payload.truthy || (plan.strategy.logFields payload).isOk
  | _ => true

omit [Clock τ] in
theorem isLegible_of_answers {plan : Plan τ ω} {r : Reading τ}
    (h : plan.strategy.Answers r.result) : r.isLegible plan = true := by
  rw [isLegible]
  split
  · rename_i payload hpayload
    rw [hpayload] at h
    cases htruthy : payload.truthy with
    | false => rfl
    | true =>
        obtain ⟨-, fields, hfields⟩ := h htruthy
        rw [hfields]
        rfl
  · rfl

/-- The log can tell of a reading: records can be made at its instant, a payload with something in
it can be dated, and the text of its status or of its failure can be written. -/
def isLoggable (plan : Plan τ ω) (r : Reading τ) : Bool :=
  Log.canRecord plan.heard r.instant &&
    match r.result with
    | .payload payload =>
        !payload.truthy || (Clock.stamp? r.instant).isSome &&
          ((plan.strategy.statusOf payload).toOption.all fun status => status.shown.isOk)
    | .failure f => f.text.isOk
    | .cancelled => true

/-- What the log says of a reading. -/
def tally (plan : Plan τ ω) (r : Reading τ) : Tally τ where
  statuses := (if r.isLegible plan && r.isLoggable plan then r.status? plan else none).toList
  troubles := (if r.isLegible plan && r.isLoggable plan then r.trouble? plan else none).toList

theorem tally_of_not_isLoggable {plan : Plan τ ω} {r : Reading τ}
    (h : r.isLoggable plan = false) : r.tally plan = {} := by
  rw [tally, h, Bool.and_false]
  rfl

end Reading

variable [Wait ω] {plan : Plan τ ω} {r : Reading τ} {notes : List Note}
variable {seen : Except Defect (Event τ)} {event : Event τ}

/-- The notes are those of entries whose tally is what the log says of a reading. -/
def Tells (plan : Plan τ ω) (r : Reading τ) (notes : List Note) : Prop :=
  ∃ entries : List Entry, List.Forall₂ (fun entry n => entry.note plan = .ok n) entries notes ∧
    tally (entries.map (r.instant, ·)) = r.tally plan

theorem tells_of_outcome (houtcome : r.outcome plan = some event)
    (hlegible : r.isLegible plan = true) (hloggable : r.isLoggable plan = true)
    (entries : List Entry)
    (hnotes : List.Forall₂ (fun entry n => entry.note plan = .ok n) entries notes)
    (htally : tally (entries.map (r.instant, ·)) =
      { statuses := (r.status? plan).toList
        troubles := ((badNews? event).map (r.instant, ·)).toList }) :
    Tells plan r notes := by
  refine ⟨entries, hnotes, htally.trans ?_⟩
  rw [Reading.tally, Reading.trouble?, houtcome, hlegible, hloggable]
  rfl

/-- Nothing is said of a reading that the log cannot tell of. -/
theorem tells_nothing (h : r.isLoggable plan = false) : Tells plan r [] :=
  ⟨[], .nil, (Reading.tally_of_not_isLoggable h).symm⟩

/-- A failed query is told of, once its failure was classified and its text is there. -/
theorem tells_of_observeFailure {f : Failure} {instant : τ} (number : Nat)
    (hobserve : observeFailure plan.config plan.strategy f = (notes, seen))
    (hdated : notes = [] ∨ Log.canRecord plan.heard instant = true) :
    Tells plan ⟨instant, number, .failure f⟩ notes := by
  have hgood {event : Event τ} (hseen : seen = .ok event) :
      (⟨instant, number, .failure f⟩ : Reading τ).outcome plan = some event :=
    outcome_of_observeFailure instant (hseen ▸ hobserve)
  have hloggable {text : String} (htext : f.text = .ok text) (hsome : notes ≠ []) :
      (⟨instant, number, .failure f⟩ : Reading τ).isLoggable plan = true := by
    simp [Reading.isLoggable, hdated.resolve_left hsome, htext, Except.isOk, Except.toBool]
  rw [observeFailure] at hobserve
  split at hobserve <;> obtain ⟨rfl, hseen⟩ := Prod.mk.inj hobserve
  case h_1 d hclass =>
    have habsent : plan.strategy.isAbsent f = .error d := by
      rw [classify] at hclass
      obtain habsent | ⟨_, _, hnever⟩ := bind_eq_error_iff.mp hclass
      · exact habsent
      · cases hnever
    refine ⟨[], .nil, ?_⟩
    simp [tally, sift, Reading.tally, Reading.status?, Reading.trouble?, Reading.outcome, outcome,
      habsent]
  case h_2 d hclass htext =>
    refine tells_nothing ?_
    simp [Reading.isLoggable, htext, Except.isOk, Except.toBool]
  case h_3 text hclass htext =>
    refine tells_of_outcome (hgood hseen.symm) rfl (hloggable htext (List.cons_ne_nil _ _))
      [.gone f] (.cons ?_ .nil) rfl
    simp [Entry.note, htext, bind, Except.bind, pure, Except.pure]
  case h_4 text hclass htext =>
    refine tells_of_outcome (hgood hseen.symm) rfl (hloggable htext (List.cons_ne_nil _ _))
      [.vanished f] (.cons ?_ .nil) rfl
    simp [Entry.note, htext, bind, Except.bind, pure, Except.pure]
  case h_5 text hclass htext =>
    refine tells_of_outcome (hgood hseen.symm) rfl (hloggable htext (List.cons_ne_nil _ _))
      [.queryFailed f] (.cons ?_ .nil) rfl
    simp [Entry.note, htext, bind, Except.bind, pure, Except.pure]

omit [Clock τ] [Wait ω] in
theorem isFailure_eq_ok_true_iff {config : WaitConfig ω} {status : Value} :
    isFailure config status = .ok true ↔
      ∃ failure ∈ config.failures, status.asText? = some failure := by
  cases status <;> simp [isFailure, Value.canBeMember, Value.asText?]

/-- Whether a status can be looked up or not, the log says what follows from it. -/
theorem tells_of_observeStatus {m : Moment τ} {payload status : Value} {fetchedAt : τ}
    {shown : String} {fields : List (String × String)} (number : Nat)
    (htruthy : payload.truthy = true) (hstatus : plan.strategy.statusOf payload = .ok status)
    (hstamp : Clock.stamp? m.now = some fetchedAt)
    (hfields : plan.strategy.logFields payload = .ok fields) (hshown : status.shown = .ok shown)
    (hobserve : observeStatus plan.config plan.strategy (.info (pollLine m shown fields)) shown
      ⟨plan.config.resource, status, payload, fetchedAt⟩ = (notes, seen)) :
    Tells plan ⟨m.now, number, .payload payload⟩ notes := by
  let r : Reading τ := ⟨m.now, number, .payload payload⟩
  let line : Entry := .poll status fields (Clock.tenths (Clock.sub m.now m.started))
    (m.cancellation.describe m.now)
  have hlegible : r.isLegible plan = true := by
    simp [r, Reading.isLegible, hfields, Except.isOk, Except.toBool]
  have hloggable : r.isLoggable plan = true := by
    simp [r, Reading.isLoggable, Log.canRecord, hstamp, hstatus, hshown, Except.toOption,
      Except.isOk, Except.toBool]
  have hfound : r.status? plan = some (m.now, status) := by
    simp [r, Reading.status?, htruthy, hstamp, hstatus, Except.toOption]
  have hfirst : line.note plan = .ok (.info (pollLine m shown fields)) := by
    rw [Entry.note, hshown]
    rfl
  have hline {event : Event τ} {others : List Note} (houtcome : r.outcome plan = some event)
      (more : List Entry)
      (hmore : List.Forall₂ (fun entry n => entry.note plan = .ok n) more others)
      (htally : tally ((line :: more).map (m.now, ·)) =
        { statuses := [(m.now, status)], troubles := ((badNews? event).map (m.now, ·)).toList }) :
      Tells plan r (.info (pollLine m shown fields) :: others) := by
    refine tells_of_outcome houtcome hlegible hloggable (line :: more) (.cons hfirst hmore) ?_
    rw [hfound]
    exact htally
  let snapshot : Snapshot τ := ⟨plan.config.resource, status, payload, fetchedAt⟩
  have houtcome : r.outcome plan =
      if status.asText? = some plan.config.desired.text then some (.desired snapshot)
      else if ∃ failure ∈ plan.config.failures, status.asText? = some failure then
        some (.failed snapshot
          (.badStatus plan.config.resource status plan.config.desired.toValue))
      else some (.progress snapshot) := by
    simp only [r, Reading.outcome, outcome, htruthy, hstatus, hstamp, if_true, snapshot]
  simp only [observeStatus, isDesired, beq_iff_eq] at hobserve
  split at hobserve
  · rename_i hdesired
    obtain ⟨rfl, -⟩ := Prod.mk.inj hobserve
    rw [if_pos hdesired] at houtcome
    refine hline houtcome [.reached status] (.cons ?_ .nil) rfl
    simp [Entry.note, hshown, bind, Except.bind, pure, Except.pure]
  · rename_i hother
    rw [if_neg hother] at houtcome
    split at hobserve
    · rename_i d hunfit
      obtain ⟨rfl, -⟩ := Prod.mk.inj hobserve
      rw [if_neg (isFailure_eq_ok_true_iff.not.mp (by simp [hunfit]))] at houtcome
      exact hline houtcome [] .nil rfl
    · rename_i hfailure
      obtain ⟨rfl, -⟩ := Prod.mk.inj hobserve
      rw [if_pos (isFailure_eq_ok_true_iff.mp hfailure)] at houtcome
      refine hline houtcome [.failed status] (.cons ?_ .nil) rfl
      simp [Entry.note, hshown, bind, Except.bind, pure, Except.pure]
    · rename_i hgoing
      obtain ⟨rfl, -⟩ := Prod.mk.inj hobserve
      rw [if_neg (isFailure_eq_ok_true_iff.not.mp (by simp [hgoing]))] at houtcome
      exact hline houtcome [] .nil rfl

theorem tells_of_observePayload {m : Moment τ} {payload : Value} (number : Nat)
    (hobserve : observePayload plan.config plan.strategy m payload = (notes, seen))
    (hdated : notes = [] ∨ Log.canRecord plan.heard m.now = true) :
    Tells plan ⟨m.now, number, .payload payload⟩ notes := by
  let r : Reading τ := ⟨m.now, number, .payload payload⟩
  rw [observePayload] at hobserve
  split at hobserve
  · rename_i hempty
    rw [Bool.not_eq_true'] at hempty
    obtain ⟨rfl, -⟩ := Prod.mk.inj hobserve
    have houtcome : r.outcome plan =
        some (.emptyResponse (.emptyResponse plan.config.resource payload)) := by
      simp [r, Reading.outcome, outcome, hempty]
    have hlegible : r.isLegible plan = true := by simp [r, Reading.isLegible, hempty]
    have hloggable : r.isLoggable plan = true := by
      simp [r, Reading.isLoggable, hempty, hdated.resolve_left (List.cons_ne_nil _ _)]
    refine tells_of_outcome houtcome hlegible hloggable [.emptyResponse] (.cons rfl .nil) ?_
    simp only [Reading.status?, hempty, Bool.false_and, Bool.false_eq_true, if_false]
    rfl
  rename_i hfull
  rw [Bool.not_eq_true', Bool.not_eq_false] at hfull
  split at hobserve
  · rename_i d hstatus
    obtain ⟨rfl, -⟩ := Prod.mk.inj hobserve
    have houtcome : r.outcome plan = none := by simp [r, Reading.outcome, outcome, hfull, hstatus]
    have hnone : r.status? plan = none := by simp [r, Reading.status?, hstatus, Except.toOption]
    refine ⟨[], .nil, ?_⟩
    rw [Reading.tally, Reading.trouble?, houtcome, hnone]
    simp [tally, sift]
  rename_i status hstatus
  split at hobserve
  · rename_i hstamp
    obtain ⟨rfl, -⟩ := Prod.mk.inj hobserve
    exact tells_nothing (by simp [Reading.isLoggable, hfull, hstamp])
  rename_i fetchedAt hstamp
  split at hobserve
  · rename_i d hfields
    obtain ⟨rfl, -⟩ := Prod.mk.inj hobserve
    have hlegible : r.isLegible plan = false := by
      simp [r, Reading.isLegible, hfull, hfields, Except.isOk, Except.toBool]
    refine ⟨[], .nil, ?_⟩
    rw [Reading.tally, hlegible, Bool.false_and]
    rfl
  rename_i fields hfields
  split at hobserve
  · rename_i d hshown
    obtain ⟨rfl, -⟩ := Prod.mk.inj hobserve
    refine tells_nothing ?_
    simp [Reading.isLoggable, hfull, hstatus, hshown, Except.toOption, Except.isOk,
      Except.toBool]
  · rename_i shown hshown
    exact tells_of_observeStatus number hfull hstatus hstamp hfields hshown hobserve

/-! ### Readings that lead to an event -/

omit [Wait ω] in
theorem isLoggable_of_observeFailure {f : Failure} {instant : τ} (number : Nat)
    (hobserve : observeFailure plan.config plan.strategy f = (notes, .ok event))
    (hdated : notes = [] ∨ Log.canRecord plan.heard instant = true) :
    (⟨instant, number, .failure f⟩ : Reading τ).isLoggable plan = true := by
  rw [observeFailure] at hobserve
  split at hobserve
  case h_1 => cases hobserve
  case h_2 => cases hobserve
  all_goals
    rename_i htext
    obtain ⟨rfl, -⟩ := Prod.mk.inj hobserve
    simp [Reading.isLoggable, hdated.resolve_left (List.cons_ne_nil _ _), htext, Except.isOk,
      Except.toBool]

omit [Wait ω] in
theorem isLoggable_of_observePayload {m : Moment τ} {payload : Value} (number : Nat)
    (hobserve : observePayload plan.config plan.strategy m payload = (notes, .ok event))
    (hdated : notes = [] ∨ Log.canRecord plan.heard m.now = true) :
    (⟨m.now, number, .payload payload⟩ : Reading τ).isLoggable plan = true := by
  rw [observePayload] at hobserve
  split at hobserve
  case isTrue hempty =>
    rw [Bool.not_eq_true'] at hempty
    obtain ⟨rfl, -⟩ := Prod.mk.inj hobserve
    simp [Reading.isLoggable, hempty, hdated.resolve_left (List.cons_ne_nil _ _)]
  split at hobserve
  case h_1 => cases hobserve
  rename_i status hstatus
  split at hobserve
  case h_1 => cases hobserve
  rename_i fetchedAt hstamp
  split at hobserve
  case h_1 => cases hobserve
  split at hobserve
  case h_1 => cases hobserve
  rename_i shown hshown
  simp [Reading.isLoggable, Log.canRecord, hstamp, hstatus, hshown, Except.toOption, Except.isOk,
    Except.toBool]

end Reading

end Vigil.Watch
