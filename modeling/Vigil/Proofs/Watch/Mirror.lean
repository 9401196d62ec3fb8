import Mathlib.Data.List.Infix
import Vigil.Log.Layout
import Vigil.Proofs.Log.Levels
import Vigil.Proofs.Watch.Agreement
import Vigil.Proofs.Watch.Hook
import Vigil.Proofs.Watch.Logbook

/-!
# The log mirrors the run

Whoever has the log of a watch can tell what its queries found, how its hook failed and how it came
to its end, and the log tells nothing twice.  It misses only what nobody can log: what happens at an
instant that no calendar shows, and texts with numbers of too many digits.  The notes are compared
with the run as entries first.  Then the words of a note and its level are enough to tell what it is
about, for a strategy whose description does not itself read like the beginning of a note.
-/

namespace Vigil.Watch

open Log (Desk Handler Level Note Record)
open Number (Amount pow10)

variable {τ ω : Type}

/-! ### Reading entries off their notes -/

/-- A text that begins with a name does not open with some words if the name does not, unless it
goes on like them. -/
theorem startsWith_named {name middle after words : String}
    (hname : Text.startsWith name words = false)
    (hapart : ∀ rest ∈ words.toList.tails,
      rest <+: middle.toList ∨ middle.toList <+: rest → rest = []) :
    Text.startsWith (name ++ middle ++ after) words = false := by
  rw [Text.startsWith, ← Bool.not_eq_true, List.isPrefixOf_iff_prefix] at hname ⊢
  rw [String.toList_append, String.toList_append, List.append_assoc]
  intro h
  rcases List.prefix_or_prefix_of_prefix h (List.prefix_append _ _) with hwords | ⟨rest, hrest⟩
  · exact hname hwords
  · rw [← hrest, List.prefix_append_right_inj] at h
    have hmem : rest ∈ words.toList.tails := by
      rw [List.mem_tails, ← hrest]
      exact List.suffix_append _ _
    rw [hapart rest hmem (List.prefix_or_prefix_of_prefix h (List.prefix_append _ _)),
      List.append_nil] at hrest
    exact hname (hrest ▸ List.prefix_rfl)

/-- The words that the note of an entry begins with. -/
def Entry.words (plan : Plan τ ω) : Entry → String
  | opening _ => "Polling "
  | poll _ _ _ _ => "Poll | status="
  | reached _ => "Desired "
  | gone _ => plan.strategy.description ++ " already gone as desired: "
  | queryFailed _ => "Query failed"
  | emptyResponse => "Expected"
  | vanished _ => plan.strategy.description ++ " does not exist; aborting: "
  | failed _ => plan.strategy.description ++ " reached failure status "
  | aborted _ => "Wait aborted"
  | stopped => "Wait stopped"
  | grace => "Sleeping initial wait "
  | hookFailed _ => "Tick hook failed"
  | cancelled => "Poll task cancelled"

section Words

variable [Wait ω] {plan : Plan τ ω} {entry : Entry} {n : Note}

theorem exists_message_eq (h : entry.note plan = .ok n) :
    ∃ rest, n.message = entry.words plan ++ rest := by
  cases entry with
  | opening timeLeft =>
      obtain ⟨first, _, h⟩ := bind_eq_ok_iff.mp h
      obtain ⟨second, _, h⟩ := bind_eq_ok_iff.mp h
      cases h
      refine ⟨plan.strategy.description ++ " (initial wait " ++ first ++ "s, interval " ++ second ++
        "s, time left " ++ timeLeft ++ ")", ?_⟩
      simp [Note.info, Entry.words, String.append_assoc]
  | poll status fields ago timeLeft =>
      obtain ⟨shown, _, h⟩ := bind_eq_ok_iff.mp h
      cases h
      refine ⟨shown ++ String.join (fields.map fun field => " | " ++ field.1 ++ "=" ++ field.2) ++
        " | started " ++ ago ++ "s ago | time left " ++ timeLeft, ?_⟩
      simp only [Note.info, Entry.words, String.append_assoc]
  | reached status =>
      obtain ⟨shown, _, h⟩ := bind_eq_ok_iff.mp h
      cases h
      refine ⟨plan.strategy.description ++ " status reached: " ++ shown, ?_⟩
      simp [Note.info, Entry.words, String.append_assoc]
  | queryFailed f =>
      obtain ⟨text, _, h⟩ := bind_eq_ok_iff.mp h
      cases h
      exact ⟨"; retrying: " ++ f.kind ++ ": " ++ text, by
        simp [Note.warning, Entry.words, ← String.append_assoc]⟩
  | grace =>
      obtain ⟨text, _, h⟩ := bind_eq_ok_iff.mp h
      cases h
      exact ⟨text ++ "s", by simp [Note.info, Entry.words, String.append_assoc]⟩
  | gone | vanished | failed =>
      obtain ⟨text, _, h⟩ := bind_eq_ok_iff.mp h
      cases h
      exact ⟨text, rfl⟩
  | emptyResponse =>
      cases h
      exact ⟨" non-empty response; retrying", rfl⟩
  | aborted exceeded =>
      cases h
      refine ⟨" (" ++ (if exceeded then "deadline exceeded" else "cancelled") ++ ")", ?_⟩
      cases exceeded <;> rfl
  | hookFailed f =>
      cases h
      exact ⟨"; continuing", rfl⟩
  | stopped | cancelled =>
      cases h
      exact ⟨"", rfl⟩

theorem startsWith_poll (h : entry.note plan = .ok n)
    (hname : Text.startsWith plan.strategy.description "Poll | status=" = false) :
    Text.startsWith n.message "Poll | status=" = entry.status?.isSome := by
  obtain ⟨rest, hmessage⟩ := exists_message_eq h
  rw [hmessage]
  cases entry with
  | gone cause => exact startsWith_named hname (by decide)
  | vanished cause => exact startsWith_named hname (by decide)
  | failed status => exact startsWith_named hname (by decide)
  | _ => simp [Entry.words, Text.startsWith, Entry.status?, List.isPrefixOf_cons_cons]

theorem startsWith_grace (h : entry.note plan = .ok n)
    (hname : Text.startsWith plan.strategy.description "Sleeping initial wait" = false) :
    Text.startsWith n.message "Sleeping initial wait" = entry.isGrace := by
  obtain ⟨rest, hmessage⟩ := exists_message_eq h
  rw [hmessage]
  cases entry with
  | gone cause => exact startsWith_named hname (by decide)
  | vanished cause => exact startsWith_named hname (by decide)
  | failed status => exact startsWith_named hname (by decide)
  | _ => simp [Entry.words, Text.startsWith, Entry.isGrace, List.isPrefixOf_cons_cons]

end Words

/-- The note is a line about a payload, and it shows a status. -/
def ShowsStatus [Wait ω] (plan : Plan τ ω) (n : τ × Note) (s : τ × Value) : Prop :=
  n.1 = s.1 ∧ ∃ fields ago timeLeft, (Entry.poll s.2 fields ago timeLeft).note plan = .ok n.2

/-- How many warnings a tally counts. -/
def Tally.warnings (t : Tally τ) : Nat := t.troubles.length + t.aborts.length + t.cancellations

theorem Tally.warnings_add (a b : Tally τ) : (a + b).warnings = a.warnings + b.warnings := by
  change (a.troubles ++ b.troubles).length + (a.aborts ++ b.aborts).length +
    (a.cancellations + b.cancellations) = _
  rw [List.length_append, List.length_append, warnings, warnings]
  omega

section Entries

variable [Clock τ] [Wait ω] {plan : Plan τ ω} {entries : List (τ × Entry)}
variable {notes : List (τ × Note)}

omit [Clock τ] [Wait ω] in
theorem tally_cons (e : τ × Entry) (entries : List (τ × Entry)) :
    tally (e :: entries) = tally [e] + tally entries := tally_append [e] entries

/-- The lines that open like lines about payloads show the statuses one by one. -/
theorem NotesOf.polls (h : NotesOf plan entries notes)
    (hname : Text.startsWith plan.strategy.description "Poll | status=" = false) :
    List.Forall₂ (ShowsStatus plan)
      (notes.filter fun n => Text.startsWith n.2.message "Poll | status=")
      (tally entries).statuses := by
  induction h with
  | nil => exact .nil
  | @cons e n entries notes hfirst _ ih =>
      obtain ⟨instant, entry⟩ := e
      have hopens := startsWith_poll hfirst.note hname
      rw [List.filter_cons, hopens]
      change List.Forall₂ _ _ (sift Entry.status? ((instant, entry) :: entries))
      rw [sift, List.filterMap_cons]
      cases entry with
      | poll status fields ago timeLeft =>
          exact .cons ⟨hfirst.instant.symm, fields, ago, timeLeft, hfirst.note⟩ ih
      | _ => exact ih

/-- There are as many warnings as the tally counts. -/
theorem NotesOf.warnings (h : NotesOf plan entries notes) :
    notes.countP (·.2.level = .warning) = (tally entries).warnings := by
  induction h with
  | nil => rfl
  | @cons e n entries notes hfirst _ ih =>
      have hone : (if decide (n.2.level = .warning) then 1 else 0) = (tally [e]).warnings := by
        rw [Entry.level_of_note hfirst.note]
        obtain ⟨instant, entry⟩ := e
        cases entry <;> rfl
      rw [tally_cons, Tally.warnings_add, ← ih, ← hone, Nat.add_comm]
      exact List.countP_cons

/-- The errors are those of the hook. -/
theorem NotesOf.errors (h : NotesOf plan entries notes) :
    notes.filter (·.2.level = .error) =
      (tally entries).hookFailures.map fun (instant, f) =>
        (instant, ⟨.error, "Tick hook failed; continuing", some f⟩) := by
  induction h with
  | nil => rfl
  | @cons e n entries notes hfirst _ ih =>
      obtain ⟨instant, entry⟩ := e
      obtain ⟨instant', n⟩ := n
      obtain rfl : instant = instant' := hfirst.instant
      have hlevel : n.level = entry.level := Entry.level_of_note hfirst.note
      rw [List.filter_cons]
      simp only [hlevel]
      change _ = (sift Entry.hookFailure? ((instant, entry) :: entries)).map _
      rw [sift, List.filterMap_cons]
      cases entry with
      | hookFailed f =>
          obtain rfl : _ = n := Except.ok.inj hfirst.note
          exact congrArg (_ :: ·) ih
      | _ => exact ih

/-- The grace period is told as often as the tally counts. -/
theorem NotesOf.graces (h : NotesOf plan entries notes)
    (hname : Text.startsWith plan.strategy.description "Sleeping initial wait" = false) :
    notes.countP (fun n => Text.startsWith n.2.message "Sleeping initial wait") =
      (tally entries).graces := by
  induction h with
  | nil => rfl
  | @cons e n entries notes hfirst _ ih =>
      have hone := startsWith_grace hfirst.note hname
      have hall : (tally (e :: entries)).graces =
          (tally entries).graces + if e.2.isGrace = true then 1 else 0 := by
        simp [tally, List.countP_cons]
      rw [List.countP_cons, hone, ih, hall]

/-- What is so of the notes of all entries is so of each note. -/
theorem NotesOf.exists_of_mem (h : NotesOf plan entries notes) {n : τ × Note} (hn : n ∈ notes) :
    ∃ entry : Entry, entry.note plan = .ok n.2 ∧ Log.canRecord plan.heard n.1 = true := by
  induction h with
  | nil => cases hn
  | @cons e n' entries notes hfirst _ ih =>
      rcases List.mem_cons.mp hn with rfl | hn
      · exact ⟨e.2, hfirst.note, hfirst.instant ▸ hfirst.dated⟩
      · exact ih hn

end Entries

/-! ### The log of a whole run -/

/-- The query returned a payload with something in it. -/
def Reading.isFull (r : Reading τ) : Bool :=
  match r.result with
  | .payload payload => payload.truthy
  | _ => false

section Answers

variable [Clock τ] {plan : Plan τ ω}

/-- If no callback raises, a payload with something in it that the log can tell of has a status. -/
theorem Reading.isSome_status? {r : Reading τ} (h : plan.strategy.Answers r.result)
    (hloggable : r.isLoggable plan = true) : (r.status? plan).isSome = r.isFull := by
  obtain ⟨instant, number, result⟩ := r
  cases result with
  | payload payload =>
      simp only [status?, isFull]
      cases htruthy : payload.truthy with
      | false => rfl
      | true =>
          obtain ⟨⟨status, hstatus⟩, -⟩ := h htruthy
          simp only [isLoggable, htruthy, Bool.not_true, Bool.false_or, Bool.and_eq_true] at hloggable
          rw [hstatus, Bool.true_and, hloggable.2.1]
          rfl
  | failure f => rfl
  | cancelled => rfl

/-- If no callback raises, the log tells of all readings that it can tell of. -/
theorem tallyOf_of_answers {readings : List (Reading τ)}
    (h : ∀ r ∈ readings, plan.strategy.Answers r.result) :
    tallyOf plan readings =
      { statuses := (readings.filter (Reading.isLoggable plan)).filterMap (Reading.status? plan)
        troubles :=
          (readings.filter (Reading.isLoggable plan)).filterMap (Reading.trouble? plan) } := by
  have hlegible : ∀ r ∈ readings, r.isLegible plan = true := fun r hr =>
    Reading.isLegible_of_answers (h r hr)
  have hall {α : Type} (about : Reading τ → Option α) :
      (readings.flatMap fun r =>
        (if r.isLegible plan && r.isLoggable plan then about r else none).toList) =
        (readings.filter (Reading.isLoggable plan)).filterMap about := by
    rw [List.filterMap_filter, List.filterMap_eq_flatMap_toList]
    exact List.flatMap_congr fun r hr => by rw [hlegible r hr, Bool.true_and]
  simp only [tallyOf, Reading.tally, hall]

end Answers

theorem shown_toValue (label : Label) : label.toValue.shown = .ok label.text := by
  cases label <;> rfl

/-- A line shows to which watch a record is bound. -/
theorem context_of_bound {config : WaitConfig ω} {r : Record τ} (h : r.bound = config.bound) :
    r.context = .ok (" [component=poller resource=" ++ config.resource ++ " desired=" ++
      config.desired.text ++ "]") := by
  have hparts : r.watchParts =
      [("component", .text "poller"), ("resource", .text config.resource),
        ("desired", config.desired.toValue)] := by
    rw [Record.watchParts, h]
    rfl
  rw [Record.context, hparts]
  simp only [List.mapM_cons, List.mapM_nil, shown_toValue]
  apply congrArg Except.ok
  apply String.toList_inj.mp
  simp [String.intercalate_cons_cons]

section Mirrors

variable [Clock τ] [Wait ω] [Spans ω τ]

/-- The readings that the log can tell of. -/
def World.loggable (plan : Plan τ ω) (w : World τ ω) : List (Reading τ) :=
  w.readings.filter (Reading.isLoggable plan)

/-- The log of a watch, compared with what else is known of its run. -/
structure Mirrors (plan : Plan τ ω) (before : World τ ω) (turns : List (Turn τ))
    (w : World τ ω) : Prop where
  /-- The log is made of entries, and what they tell of queries, aborts, the hook, the grace period
  and cancellations is what happened and could be logged, in order. -/
  entries : ∃ entries : List (τ × Entry), NotesOf plan entries w.notes ∧ tally entries =
    { statuses := (w.loggable plan).filterMap (Reading.status? plan)
      troubles := (w.loggable plan).filterMap (Reading.trouble? plan)
      aborts := before.abortsIn plan turns
      hookFailures := recordable plan (before.hookFailuresIn plan turns)
      graces := w.graces
      cancellations := w.interruptions }
  /-- The log can tell of all readings, or of all but the last one, at which the run broke. -/
  told : w.Told plan (.held : Point ω)
  /-- There is one line about each payload, and it shows its status. -/
  polls : Text.startsWith plan.strategy.description "Poll | status=" = false →
    List.Forall₂ (ShowsStatus plan)
      (w.notes.filter fun n => Text.startsWith n.2.message "Poll | status=")
      ((w.loggable plan).filterMap (Reading.status? plan))
  /-- A payload with something in it has a status. -/
  payloads : ((w.loggable plan).filterMap (Reading.status? plan)).length =
    (w.loggable plan).countP Reading.isFull
  /-- There is one warning about each query that went badly, one about an abort, and one about the
  cancellation of the task. -/
  warnings : w.notes.countP (·.2.level = .warning) =
    ((w.loggable plan).filterMap (Reading.trouble? plan)).length +
      (before.abortsIn plan turns).length + w.interruptions
  /-- The run was aborted at most once. -/
  aborts : (before.abortsIn plan turns).length ≤ 1
  /-- The errors are the failures of the hook. -/
  errors : w.notes.filter (·.2.level = .error) =
    (recordable plan (before.hookFailuresIn plan turns)).map fun (instant, f) =>
      (instant, ⟨.error, "Tick hook failed; continuing", some f⟩)
  /-- The grace period is told at most once. -/
  grace : Text.startsWith plan.strategy.description "Sleeping initial wait" = false →
    w.notes.countP (fun n => Text.startsWith n.2.message "Sleeping initial wait") ≤ 1
  /-- Each record is bound to the watch, and says so. -/
  bound : ∀ r ∈ w.records plan, r.bound = plan.config.bound ∧
    r.context = .ok (" [component=poller resource=" ++ plan.config.resource ++ " desired=" ++
      plan.config.desired.text ++ "]")
  /-- All records can be given to the handlers. A handler for all levels shows all of them, and any
  other handler for the same records shows those that reach its level. -/
  shown : ∀ d : Desk τ, d.Reached → d.hears Log.watchModule = plan.heard →
    ∃ d', d.logAll (w.records plan) = .ok d' ∧
      (d.enabled = true → ∀ h ∈ d.handlers, h.threshold = Level.trace.rank →
        (∀ scope ∈ h.scope, scope = Log.package) →
          Desk.shownSince d d' h = w.records plan) ∧
      ∀ h ∈ d.handlers, ∀ reference ∈ d.handlers, reference.threshold = Level.trace.rank →
        h.scope = reference.scope →
          Desk.shownSince d d' h = (Desk.shownSince d d' reference).filter fun r =>
            h.threshold ≤ r.level.rank

omit [Clock τ] [Wait ω] [Spans ω τ] in
theorem World.graces_le (w : World τ ω) : w.graces ≤ 1 := by
  rw [graces]
  split_ifs <;> decide

/-- What each record of a run has in common with all others. -/
structure IsRecordOf (plan : Plan τ ω) (r : Record τ) : Prop where
  level : Level.trace.rank ≤ r.level.rank
  origin : r.origin = Log.watchModule
  bound : r.bound = plan.config.bound
  dated : Log.canRecord plan.heard r.at_ = true

omit [Spans ω τ] in
theorem NotesOf.isRecordOf {plan : Plan τ ω} {w : World τ ω} {entries : List (τ × Entry)}
    (h : NotesOf plan entries w.notes) {r : Record τ} (hr : r ∈ w.records plan) :
    IsRecordOf plan r := by
  obtain ⟨n, hn, rfl⟩ := List.mem_map.mp hr
  obtain ⟨entry, hnote, hdated⟩ := h.exists_of_mem hn
  exact ⟨Nat.le_trans (by decide) (Entry.info_le_level hnote), rfl, rfl, hdated⟩

omit [Wait ω] [Spans ω τ] in
/-- The records of a run are given to the handlers of those who hear the run. -/
theorem shown_of_isRecordOf {plan : Plan τ ω} {records : List (Record τ)}
    (hrecords : ∀ r ∈ records, IsRecordOf plan r) {d : Desk τ} (hd : d.Reached)
    (hheard : d.hears Log.watchModule = plan.heard) :
    ∃ d', d.logAll records = .ok d' ∧
      (d.enabled = true → ∀ h ∈ d.handlers, h.threshold = Level.trace.rank →
        (∀ scope ∈ h.scope, scope = Log.package) → Desk.shownSince d d' h = records) ∧
      ∀ h ∈ d.handlers, ∀ reference ∈ d.handlers, reference.threshold = Level.trace.rank →
        h.scope = reference.scope →
          Desk.shownSince d d' h = (Desk.shownSince d d' reference).filter fun r =>
            h.threshold ≤ r.level.rank := by
  have hlog : d.logAll records = .ok (d.emitAll records) := Desk.logAll_eq_ok fun r hr => by
    rw [(hrecords r hr).origin, hheard]
    exact (hrecords r hr).dated
  refine ⟨_, hlog, fun henabled h hmem hthreshold hscope => ?_,
    fun h hmem reference hreference hthreshold hscope => ?_⟩
  · rw [Desk.shownSince_emitAll hd.numbered hmem, List.filter_eq_self]
    intro r hr
    rw [Desk.letsThrough, henabled, Handler.shows, hthreshold,
      decide_eq_true (hrecords r hr).level, (hrecords r hr).origin]
    cases hscoped : h.scope with
    | none => rfl
    | some scope =>
        rw [hscope scope hscoped]
        decide
  · exact Desk.shownSince_of_reference hd.numbered hmem hreference hscope fun r hr =>
      hthreshold ▸ (hrecords r hr).level

/-- The log of a run mirrors it, whatever happens around it. -/
theorem log_mirrors_run {plan : Plan τ ω} {now : τ} {cancellation : Cancellation τ}
    {stopped : Bool} {stream : Stream (Event τ)} {turns : List (Turn τ)} {w : World τ ω}
    (htake : (World.start now cancellation stopped stream).takeAll? plan turns = some w)
    (hanswers : ∀ r ∈ w.readings, plan.strategy.Answers r.result) :
    Mirrors plan (World.start now cancellation stopped stream) turns w := by
  have hstart : Logged plan (World.start now cancellation stopped stream) (.held : Point ω) [] [] :=
    ⟨[], .nil, rfl⟩
  have hnone : (World.start now cancellation stopped stream : World τ ω).Told plan
      (.held : Point ω) := .inl nofun
  obtain ⟨entries, hnotes, htally⟩ := hstart.takeAll ⟨fun _ _ => rfl, rfl, rfl⟩ rfl htake
  have hreported : w.reported (.held : Point ω) = w.readings := rfl
  rw [account, hreported, tallyOf_of_answers hanswers, List.nil_append, List.nil_append] at htally
  constructor
  case entries => exact ⟨entries, hnotes, htally⟩
  case told => exact hnone.takeAll ⟨fun _ _ => rfl, rfl, rfl⟩ rfl htake
  case polls =>
    intro hname
    have hshown := hnotes.polls hname
    rwa [htally] at hshown
  case payloads =>
    rw [List.length_filterMap_eq_countP]
    refine List.countP_congr fun r hr => ?_
    obtain ⟨hr, hloggable⟩ := List.mem_filter.mp hr
    rw [Reading.isSome_status? (hanswers r hr) hloggable]
  case warnings => rw [hnotes.warnings, htally, Tally.warnings, World.loggable]
  case aborts => exact World.abortsIn_length_le ..
  case errors => rw [hnotes.errors, htally]
  case grace =>
    intro hname
    rw [hnotes.graces hname, htally]
    exact w.graces_le
  case bound =>
    exact fun r hr => ⟨(hnotes.isRecordOf hr).bound, context_of_bound (hnotes.isRecordOf hr).bound⟩
  case shown =>
    exact fun d hd hheard => shown_of_isRecordOf (fun r hr => hnotes.isRecordOf hr) hd hheard

end Mirrors

/-- Logging was set up twice: the console shows everything, and another stream warnings only. -/
def attended : Desk Int :=
  ((Desk.empty.setUp (.ofFields [("level", .text "TRACE")]) .standardError default).1.setUp
    (.ofFields [("level", .text "WARNING")]) .sink default).1

theorem recovering_answers (result : Result) : recovering.strategy.Answers result := by
  cases result with
  | failure f => exact ⟨false, rfl⟩
  | payload payload => exact fun _ => ⟨⟨payload, rfl⟩, [], rfl⟩
  | cancelled => trivial

/-- The log of this watch tells of its first query, which failed, of the three statuses that the
others found, and of the hook, which failed once.  The handler for warnings shows two records. -/
theorem log_mirrors_run_of_grumbling :
    ∃ w : World Int Int,
      (World.start 0 ⟨false, none⟩ false ⟨1, [], false⟩).takeAll? warmingUp grumbling = some w ∧
      (∀ r ∈ w.readings, warmingUp.strategy.Answers r.result) ∧
      (w.readings.filterMap (Reading.status? warmingUp)).map Prod.fst = [2, 11, 13] ∧
      w.readings.filterMap (Reading.trouble? warmingUp) = [(0, .queryError)] ∧
      w.notes.map (·.2.level.rank) = [20, 30, 20, 20, 20, 40, 20, 20] ∧
      attended.Reached ∧ attended.enabled = true ∧
      attended.handlers =
        [⟨0, .standardError, 5, some Log.package⟩, ⟨1, .sink, 30, some Log.package⟩] ∧
      (attended.emitAll (w.records warmingUp)).deliveries.map (·.handler) =
        [0, 0, 1, 0, 0, 0, 0, 1, 0, 0] ∧
      Mirrors warmingUp (World.start 0 ⟨false, none⟩ false ⟨1, [], false⟩) grumbling w := by
  obtain ⟨w, htake, hstatuses, htroubles, hlevels, hshown⟩ : ∃ w : World Int Int,
      (World.start 0 ⟨false, none⟩ false ⟨1, [], false⟩).takeAll? warmingUp grumbling = some w ∧
      (w.readings.filterMap (Reading.status? warmingUp)).map Prod.fst = [2, 11, 13] ∧
      w.readings.filterMap (Reading.trouble? warmingUp) = [(0, .queryError)] ∧
      w.notes.map (·.2.level.rank) = [20, 30, 20, 20, 20, 40, 20, 20] ∧
      (attended.emitAll (w.records warmingUp)).deliveries.map (·.handler) =
        [0, 0, 1, 0, 0, 0, 0, 1, 0, 0] := ⟨_, rfl, rfl, rfl, rfl, rfl⟩
  have hanswers : ∀ r ∈ w.readings, warmingUp.strategy.Answers r.result := fun r _ =>
    recovering_answers r.result
  exact ⟨w, htake, hanswers, hstatuses, htroubles, hlevels, .setUp (.setUp .empty _ _ _) _ _ _,
    rfl, rfl, hshown, log_mirrors_run htake hanswers⟩

/-- Of two payloads the log tells only one, if the calendar cannot show the instant of the other.
In the same way it tells one of two failed queries there, and nothing of the end of a watch that is
called off there.  And it tells nothing of the end of a task that was cancelled before its first
step. -/
theorem log_misses_instants_beyond_calendar :
    (∃ w : World Float Amount,
      (World.start Clock.zero ⟨false, none⟩ false ⟨1, [], false⟩).actAll?
        (starting (.whole (pow10 12)) (.text "starting")) (pauseOnce 1e12) = some w ∧
      (∀ r ∈ w.readings,
        (starting (.whole (pow10 12)) (.text "starting")).strategy.Answers r.result) ∧
      w.readings.countP Reading.isFull = 2 ∧
      (w.notes.countP fun n => Text.startsWith n.2.message "Poll | status=") = 1) ∧
    (∃ w : World Float Amount,
      (World.start Clock.zero ⟨false, none⟩ false ⟨1, [], false⟩).actAll? timeless
        (asleepForAges ++ [.passTime 2e12, .run, .helper 0, .helper 0, .run]) = some w ∧
      (∀ r ∈ w.readings, timeless.strategy.Answers r.result) ∧
      (w.readings.filterMap (Reading.trouble? timeless)).map Prod.snd =
        [.queryError, .queryError] ∧
      (w.notes.filter fun n => n.2.level.rank = 30).length = 1) ∧
    (∃ w : World Float Amount,
      (World.start Clock.zero ⟨false, none⟩ false ⟨1, [], false⟩).actAll? timeless
        (asleepForAges ++ [.trigger .cancel, .helper 0, .run, .helper 0, .run]) = some w ∧
      (∀ r ∈ w.readings, timeless.strategy.Answers r.result) ∧
      w.MustEnd ∧ w.readings.length = 1 ∧ w.ending? = some (.broken .tooLarge) ∧
      (w.notes.filter fun n => n.2.level.rank = 30).length = 1) ∧
    ∃ w : World Int Int,
      (World.start 0 ⟨false, none⟩ false ⟨1, [], false⟩).actAll? warmingUp [.kill, .run] =
        some w ∧
      w.ending? = some .cancelled ∧ w.notes = [] := by
  have hanswers {plan : Plan Float Amount} {w : World Float Amount}
      (hplan : plan.strategy = recovering.strategy) :
      ∀ r ∈ w.readings, plan.strategy.Answers r.result := fun r _ => by
    rw [hplan]
    exact recovering_answers r.result
  obtain ⟨w₁, hact₁, hw₁⟩ : ∃ w : World Float Amount,
      (World.start Clock.zero ⟨false, none⟩ false ⟨1, [], false⟩).actAll?
        (starting (.whole (pow10 12)) (.text "starting")) (pauseOnce 1e12) = some w ∧
      w.readings.countP Reading.isFull = 2 ∧
      (w.notes.countP fun n => Text.startsWith n.2.message "Poll | status=") = 1 := by
    decide +kernel
  obtain ⟨w₂, hact₂, hw₂⟩ : ∃ w : World Float Amount,
      (World.start Clock.zero ⟨false, none⟩ false ⟨1, [], false⟩).actAll? timeless
        (asleepForAges ++ [.passTime 2e12, .run, .helper 0, .helper 0, .run]) = some w ∧
      (w.readings.filterMap (Reading.trouble? timeless)).map Prod.snd =
        [.queryError, .queryError] ∧
      (w.notes.filter fun n => n.2.level.rank = 30).length = 1 := by
    decide +kernel
  obtain ⟨w₃, hact₃, hw₃⟩ : ∃ w : World Float Amount,
      (World.start Clock.zero ⟨false, none⟩ false ⟨1, [], false⟩).actAll? timeless
        (asleepForAges ++ [.trigger .cancel, .helper 0, .run, .helper 0, .run]) = some w ∧
      w.MustEnd ∧ w.readings.length = 1 ∧ w.ending? = some (.broken .tooLarge) ∧
      (w.notes.filter fun n => n.2.level.rank = 30).length = 1 := by
    decide +kernel
  exact ⟨⟨w₁, hact₁, hanswers rfl, hw₁⟩, ⟨w₂, hact₂, hanswers rfl, hw₂⟩,
    ⟨w₃, hact₃, hanswers rfl, hw₃⟩, _, rfl, rfl, rfl⟩

end Vigil.Watch
