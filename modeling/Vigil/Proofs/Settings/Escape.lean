import Vigil.Proofs.Settings.Checks
import Vigil.Proofs.Toml.Overlong

/-!
# Files that nobody foresaw

Whoever gives wrong settings should be told what is wrong with them.  Most mistakes are indeed told
with a message of their own, but some data has a shape that no check foresees, and then the attempt
to use it fails in its own way.  A value that cannot be written is such data too: neither a message
nor a setting can show it.  Here is the whole list of what comes through.
-/

namespace Vigil.Settings

open Number (digitLimit firstTooLarge pow10 pow10_pos)

/-! ### What is told -/

/-- The fault is told with a message. -/
def Fault.Reported (f : Fault) : Prop := ∃ args, f.toFailure = .ok (.configuration args)

/-- A fault is told unless it has no message, or its message would quote what cannot be written. -/
theorem Fault.reported_iff {f : Fault} :
    f.Reported ↔ match f with
      | .notText _ | .notAPair _ _ | .defect _ => False
      | .malformed _ | .unknownKeys _ _ => True
      | .notSeconds _ v | .unknownLevel v | .badRetention v => v.IsWritable
      | .negativeSeconds _ a => ∃ text, a.text = .ok text := by
  have hquoted {text : Except Defect String} {told : String → List Value} :
      (∃ args, (do return .configuration (told (← text)) : Except Defect Failure) =
        .ok (.configuration args)) ↔ ∃ s, text = .ok s := by
    cases text <;> simp [bind, Except.bind, pure, Except.pure]
  cases f with
  | notSeconds _ v => exact hquoted.trans Value.exists_quoted_iff
  | negativeSeconds _ a => exact hquoted
  | unknownLevel v => exact hquoted.trans Value.exists_quoted_iff
  | badRetention v => exact hquoted.trans Value.exists_quoted_iff
  | _ => simp [Reported, toFailure]

theorem reported_negativeSeconds_iff {key : String} {n : Int} :
    (Fault.negativeSeconds key (.whole n)).Reported ↔ n.natAbs < pow10 digitLimit := by
  have hspells := Spells.whole n
  rw [Fault.reported_iff]
  simpa [Number.Amount.text] using hspells.exists_iff

/-- The fault is one of a value that its message quotes. -/
def Fault.Quotes : Fault → Prop
  | notSeconds _ _ | negativeSeconds _ _ | unknownLevel _ | badRetention _ => True
  | _ => False

/-- A fault of a value is told, or else the value cannot be written. -/
theorem Fault.reported_or_unwritable {f : Fault} (h : f.Quotes) :
    f.Reported ∨ f.toFailure = .error .unwritable := by
  have hquoted {v : Value} {told : String → List Value} :
      (∃ args, (do return .configuration (told (← v.quoted)) : Except Defect Failure) =
        .ok (.configuration args)) ∨
        (do return .configuration (told (← v.quoted)) : Except Defect Failure) =
          .error .unwritable := by
    cases hquoted : v.quoted with
    | ok s => exact .inl ⟨_, rfl⟩
    | error d => exact .inr (congrArg _ (Value.quoted_eq_error_iff.mp hquoted).1)
  cases f with
  | notSeconds _ v => exact hquoted
  | negativeSeconds _ a =>
      cases a with
      | whole n => exact @hquoted (.whole n) _
      | _ => exact .inl ⟨_, rfl⟩
  | unknownLevel v => exact hquoted
  | badRetention v => exact hquoted
  | _ => cases h

/-! ### What is not told -/

/-- Data that a check does not foresee: it has another shape, or it cannot be written. -/
inductive Unforeseen (fields : Fields) : Check → Prop
  | connection (h : ¬ StandsForFields (sectionOf fields "eks")) : Unforeseen fields .connection
  | waitTable (h : (sectionOf fields "wait").isTable = false) : Unforeseen fields .waitTable
  /-- The whole number is too large for a double. -/
  | seconds {key : String} {n : Int} (h : fields.at? ["wait", key] = some (.whole n))
      (hn : (firstTooLarge : Int) ≤ n) : Unforeseen fields (.seconds key)
  /-- The whole number is too far below zero to be quoted. -/
  | belowZero {key : String} {n : Int} (h : fields.at? ["wait", key] = some (.whole n))
      (hn : n ≤ -(pow10 digitLimit : Nat)) : Unforeseen fields (.seconds key)
  /-- The value is no number at all and cannot be quoted. -/
  | notSeconds {key : String} {v : Value} (h : fields.at? ["wait", key] = some v)
      (hwhole : ∀ n, v ≠ .whole n) (hv : ¬ v.IsWritable) : Unforeseen fields (.seconds key)
  | logKeys (h : ¬ StandsForNames (sectionOf fields "log")) : Unforeseen fields .logKeys
  | logTable (h : (sectionOf fields "log").isTable = false) : Unforeseen fields .logTable
  | level {v : Value} (h : fields.at? ["log", "level"] = some v) (hv : ¬ v.IsWritable) :
      Unforeseen fields .level
  /-- The value is no number of files and cannot be quoted. -/
  | retention {v : Value} (h : fields.at? ["log", "retention"] = some v)
      (hwrong : ∀ n : Nat, v ≠ .whole n) (hv : ¬ v.IsWritable) : Unforeseen fields .retention
  | rotation {v : Value} (h : fields.at? ["log", "rotation"] = some v) (hv : ¬ v.IsWritable) :
      Unforeseen fields .rotation

theorem reported_of_requireKnown {section_ : String} {known names : List String} {f : Fault}
    (h : requireKnown section_ known names = .error f) : f.Reported := by
  obtain ⟨unknown, -, -, rfl⟩ := requireKnown_eq_error_iff.mp h
  exact ⟨_, rfl⟩

theorem not_reported_of_fieldsOf {v : Value} {f : Fault} (h : fieldsOf v = .error f) :
    ¬ f.Reported := by
  obtain rfl | ⟨_, _, rfl⟩ := eq_of_fieldsOf_eq_error h <;> simp [Fault.reported_iff]

theorem not_reported_of_namesOf {v : Value} {f : Fault} (h : namesOf v = .error f) :
    ¬ f.Reported := by
  simp [eq_of_namesOf_eq_error h, Fault.reported_iff]

/-- Two steps, of which only the first one can fail without a message. -/
theorem exists_not_reported_bind_iff {α β : Type} {x : Except Fault α} {next : α → Except Fault β}
    (hx : ∀ f, x = .error f → ¬ f.Reported) (hnext : ∀ a f, next a = .error f → f.Reported) :
    (∃ f, (x >>= next) = .error f ∧ ¬ f.Reported) ↔ ¬ ∃ a, x = .ok a := by
  cases x with
  | ok a => simpa [bind, Except.bind] using hnext a
  | error f => simpa [bind, Except.bind] using hx f rfl

theorem exists_not_reported_tableOf_iff {v : Value} :
    (∃ f, tableOf v = .error f ∧ ¬ f.Reported) ↔ v.isTable = false := by
  cases v <;> simp [tableOf, Value.isTable, Fault.reported_iff]

/-- A value is no number of seconds and nothing can be told about it. -/
inductive SilentSeconds : Option Value → Prop
  | tooLarge {n : Int} (hn : (firstTooLarge : Int) ≤ n) : SilentSeconds (some (.whole n))
  | belowZero {n : Int} (hn : n ≤ -(pow10 digitLimit : Nat)) : SilentSeconds (some (.whole n))
  | kind {v : Value} (hwhole : ∀ n, v ≠ .whole n) (hv : ¬ v.IsWritable) : SilentSeconds (some v)

theorem exists_not_reported_mistakenSeconds_iff (key : String) {v : Option Value} :
    (∃ f, MistakenSeconds key v f ∧ ¬ f.Reported) ↔ SilentSeconds v := by
  constructor
  · rintro ⟨f, hf, hreported⟩
    cases hf with
    | kind _ hwhole _ => exact .kind hwhole (Fault.reported_iff.not.mp hreported)
    | belowWhole hn =>
        rw [reported_negativeSeconds_iff] at hreported
        exact .belowZero (by omega)
    | belowReal hx => exact absurd ⟨_, rfl⟩ hreported
    | tooLarge hn => exact .tooLarge hn
  · rintro (hn | @⟨n, hn⟩ | ⟨hwhole, hv⟩)
    · exact ⟨_, .tooLarge hn, by simp [Fault.reported_iff]⟩
    · have hpositive := pow10_pos digitLimit
      refine ⟨_, .belowWhole (by omega), ?_⟩
      rw [reported_negativeSeconds_iff]
      omega
    · refine ⟨_, .kind ?_ hwhole ?_, Fault.reported_iff.not.mpr hv⟩
      · rintro rfl
        exact hv nofun
      · rintro x rfl
        exact hv nofun

theorem exists_not_reported_connectionOf_iff {v : Value} :
    (∃ f, connectionOf v = .error f ∧ ¬ f.Reported) ↔ ¬ StandsForFields v := by
  have hread : (∃ f, connectionOf v = .error f ∧ ¬ f.Reported) ↔ ¬ ∃ eks, fieldsOf v = .ok eks := by
    refine exists_not_reported_bind_iff (fun _ => not_reported_of_fieldsOf) fun eks f h => ?_
    obtain h | ⟨_, _, h⟩ := bind_eq_error_iff.mp h
    · exact reported_of_requireKnown h
    · cases h
  rw [hread, exists_fieldsOf_iff]

theorem exists_not_reported_logKeys_iff {v : Value} :
    (∃ f, (namesOf v >>= requireKnown "log" Log.Config.keys) = .error f ∧ ¬ f.Reported) ↔
      ¬ StandsForNames v := by
  rw [← exists_namesOf_iff]
  exact exists_not_reported_bind_iff (fun _ => not_reported_of_namesOf)
    fun _ _ => reported_of_requireKnown

theorem exists_not_reported_seconds_iff {fields : Fields} {key : String} :
    (∃ f, (Check.seconds key).fault? fields = some f ∧ ¬ f.Reported) ↔
      SilentSeconds (fields.at? ["wait", key]) := by
  rw [Check.fault?, at?_section]
  cases htable : (sectionOf fields "wait").isTable with
  | true =>
      obtain ⟨wait, hwait⟩ := Value.isTable_iff.mp htable
      rw [← exists_not_reported_mistakenSeconds_iff key, hwait, Value.at?_table_cons]
      simp [Check.inTable?, seconds?_eq_error_iff]
  | false =>
      simp only [Value.at?_cons_of_not_table htable, Check.inTable?_eq_some_iff]
      apply iff_of_false
      · rintro ⟨_, ⟨_, hwait, _⟩, _⟩
        rw [hwait] at htable
        cases htable
      · rintro ⟨⟩

/-- What a check of the log section finds without a message depends on one value only. -/
theorem exists_not_reported_inTable_iff {fields : Fields} {key : String} {α : Type}
    {check : Fields → Except Fault α} {p : Option Value → Prop} (hnone : ¬ p none)
    (hcheck : ∀ log, (∃ f, check log = .error f ∧ ¬ f.Reported) ↔ p (Fields.get? log key)) :
    (∃ f, Check.inTable? (fun log => faultOf? (check log)) (sectionOf fields "log") = some f ∧
      ¬ f.Reported) ↔ p (fields.at? ["log", key]) := by
  rw [at?_section]
  cases htable : (sectionOf fields "log").isTable with
  | true =>
      obtain ⟨log, hlog⟩ := Value.isTable_iff.mp htable
      rw [hlog, Value.at?_table_cons]
      simpa [Check.inTable?] using hcheck log
  | false =>
      rw [Value.at?_cons_of_not_table htable]
      refine iff_of_false ?_ hnone
      rintro ⟨f, hf, _⟩
      obtain ⟨_, hlog, _⟩ := Check.inTable?_eq_some_iff.mp hf
      rw [hlog] at htable
      cases htable

/-- A level or a rotation is silently turned down if it cannot be written. -/
def Unwritable (v : Option Value) : Prop := ∃ given, v = some given ∧ ¬ given.IsWritable

theorem exists_not_reported_level_iff {fields : Fields} :
    (∃ f, Check.level.fault? fields = some f ∧ ¬ f.Reported) ↔
      Unwritable (fields.at? ["log", "level"]) := by
  refine exists_not_reported_inTable_iff nofun fun log => ?_
  simp only [levelOf_eq_error_iff]
  generalize Fields.get? log "level" = v
  constructor
  · rintro ⟨f, hf, hreported⟩
    cases hf with
    | unknown hshown _ =>
        exact absurd (Fault.reported_iff.mpr (Value.exists_shown_iff.mp ⟨_, hshown⟩)) hreported
    | unwritable hv => exact ⟨_, rfl, hv⟩
  · rintro ⟨given, rfl, hv⟩
    exact ⟨_, .unwritable hv, by simp [Fault.reported_iff]⟩

theorem exists_not_reported_rotation_iff {fields : Fields} :
    (∃ f, Check.rotation.fault? fields = some f ∧ ¬ f.Reported) ↔
      Unwritable (fields.at? ["log", "rotation"]) := by
  refine exists_not_reported_inTable_iff nofun fun log => ?_
  simp only [rotationOf_eq_error_iff]
  generalize Fields.get? log "rotation" = v
  constructor
  · rintro ⟨f, ⟨hv⟩, -⟩
    exact ⟨_, rfl, hv⟩
  · rintro ⟨given, rfl, hv⟩
    exact ⟨_, .unwritable hv, by simp [Fault.reported_iff]⟩

/-- A value is no number of files and cannot be quoted. -/
def SilentRetention (v : Option Value) : Prop :=
  ∃ given, v = some given ∧ (∀ n : Nat, given ≠ .whole n) ∧ ¬ given.IsWritable

theorem exists_not_reported_retention_iff {fields : Fields} :
    (∃ f, Check.retention.fault? fields = some f ∧ ¬ f.Reported) ↔
      SilentRetention (fields.at? ["log", "retention"]) := by
  refine exists_not_reported_inTable_iff nofun fun log => ?_
  simp only [retentionOf_eq_error_iff]
  generalize Fields.get? log "retention" = v
  constructor
  · rintro ⟨f, ⟨hwrong⟩, hreported⟩
    exact ⟨_, rfl, hwrong, Fault.reported_iff.not.mp hreported⟩
  · rintro ⟨given, rfl, hwrong, hv⟩
    exact ⟨_, .kind hwrong, Fault.reported_iff.not.mpr hv⟩

/-- A check fails without a message if it does not foresee the data. -/
theorem unforeseen_iff {fields : Fields} {check : Check} :
    (∃ f, check.fault? fields = some f ∧ ¬ f.Reported) ↔ Unforeseen fields check := by
  cases check with
  | connection =>
      simp only [Check.fault?, faultOf?_eq_some_iff]
      refine exists_not_reported_connectionOf_iff.trans ⟨.connection, fun h => ?_⟩
      cases h with
      | connection h => exact h
  | waitTable =>
      simp only [Check.fault?, faultOf?_eq_some_iff]
      refine exists_not_reported_tableOf_iff.trans ⟨.waitTable, fun h => ?_⟩
      cases h with
      | waitTable h => exact h
  | seconds key =>
      rw [exists_not_reported_seconds_iff]
      constructor
      · generalize hv : fields.at? ["wait", key] = v
        rintro (hn | hn | ⟨hwhole, hwritable⟩)
        · exact .seconds hv hn
        · exact .belowZero hv hn
        · exact .notSeconds hv hwhole hwritable
      · intro h
        cases h with
        | seconds h hn => exact h ▸ .tooLarge hn
        | belowZero h hn => exact h ▸ .belowZero hn
        | notSeconds h hwhole hv => exact h ▸ .kind hwhole hv
  | logKeys =>
      simp only [Check.fault?, faultOf?_eq_some_iff]
      refine exists_not_reported_logKeys_iff.trans ⟨.logKeys, fun h => ?_⟩
      cases h with
      | logKeys h => exact h
  | logTable =>
      simp only [Check.fault?, faultOf?_eq_some_iff]
      refine exists_not_reported_tableOf_iff.trans ⟨.logTable, fun h => ?_⟩
      cases h with
      | logTable h => exact h
  | level =>
      rw [exists_not_reported_level_iff]
      constructor
      · rintro ⟨_, h, hv⟩
        exact .level h hv
      · intro h
        cases h with
        | level h hv => exact ⟨_, h, hv⟩
  | retention =>
      rw [exists_not_reported_retention_iff]
      constructor
      · rintro ⟨_, h, hwrong, hv⟩
        exact .retention h hwrong hv
      · intro h
        cases h with
        | retention h hwrong hv => exact ⟨_, h, hwrong, hv⟩
  | rotation =>
      rw [exists_not_reported_rotation_iff]
      constructor
      · rintro ⟨_, h, hv⟩
        exact .rotation h hv
      · intro h
        cases h with
        | rotation h hv => exact ⟨_, h, hv⟩

/-! ### The whole of it -/

/-- A file whose bytes are no text. -/
def Source.NotText (source : Source) : Prop :=
  ∃ content, source = .file content ∧ String.fromUTF8? content = none

/-- A file whose reader comes upon a decimal number of too many digits. -/
def Source.Overlong (source : Source) : Prop :=
  ∃ content digits, source = .file content ∧ digitLimit < digits ∧
    Toml.ofBytes content = .error (.defect (.unreadable digits))

/-- What is wrong with two configuration files comes through without a message. -/
inductive Escapes (shared project : Source) : Prop
  | shared (h : shared.NotText ∨ shared.Overlong)
  /-- The shared file is read first, and what is wrong with it is what counts. -/
  | project {sharedFields : Fields} (hshared : shared.read .shared = .ok sharedFields)
      (h : project.NotText ∨ project.Overlong)
  /-- The first failing check is one that does not foresee the data. -/
  | unforeseen {sharedFields projectFields : Fields}
      (hshared : shared.read .shared = .ok sharedFields)
      (hproject : project.read .project = .ok projectFields)
      {before after : List Check} {check : Check}
      (horder : Check.inOrder = before ++ check :: after)
      (hbefore : ∀ c ∈ before, c.fault? (combine sharedFields projectFields) = none)
      (h : Unforeseen (combine sharedFields projectFields) check)

theorem exists_not_reported_read_iff {source : Source} (place : Place) :
    (∃ f, source.read place = .error f ∧ ¬ f.Reported) ↔ source.NotText ∨ source.Overlong := by
  cases source with
  | missing => simp [Source.read, Source.NotText, Source.Overlong]
  | file content =>
      cases htext : String.fromUTF8? content with
      | none => simp [Source.read, Source.NotText, Toml.ofBytes, htext, Fault.reported_iff]
      | some text =>
          have hread : Toml.ofBytes content = Toml.ofText text := by rw [Toml.ofBytes, htext]
          have hfails := Toml.failsAsText_ofText text
          simp only [Source.read, Source.NotText, Source.Overlong, Source.file.injEq,
            exists_eq_left', exists_and_left, hread, htext, reduceCtorEq, false_or]
          cases hresult : Toml.ofText text with
          | ok fields => simp
          | error e =>
              cases hfails e hresult with
              | malformed => simp [Fault.reported_iff]
              | overlong hdigits => simpa [Fault.reported_iff] using hdigits

/-- The first failing check is the one whose fault is told, or is not. -/
theorem escapes_iff {shared project : Source} :
    Escapes shared project ↔ ∃ f, ofSources shared project = .error f ∧ ¬ f.Reported := by
  constructor
  · rintro (h | ⟨hshared, h⟩ | ⟨hshared, hproject, horder, hbefore, h⟩)
    · obtain ⟨f, hread, hreported⟩ := (exists_not_reported_read_iff .shared).mpr h
      exact ⟨f, by rw [ofSources, load, hread]; rfl, hreported⟩
    · obtain ⟨f, hread, hreported⟩ := (exists_not_reported_read_iff .project).mpr h
      exact ⟨f, by rw [ofSources, load, hshared, hread]; rfl, hreported⟩
    · obtain ⟨f, hf, hreported⟩ := unforeseen_iff.mpr h
      refine ⟨f, ?_, hreported⟩
      rw [ofSources, load, hshared, hproject]
      refine faultOf?_eq_some_iff.mp ((faultOf?_ofFields _).trans ?_)
      exact List.findSome?_eq_some_iff.mpr ⟨_, _, _, horder, hf, hbefore⟩
  · rintro ⟨f, h, hreported⟩
    obtain h | ⟨fields, hload, h⟩ := bind_eq_error_iff.mp h
    · obtain h | ⟨sharedFields, hshared, h⟩ := bind_eq_error_iff.mp h
      · exact .shared ((exists_not_reported_read_iff _).mp ⟨f, h, hreported⟩)
      · obtain h | ⟨_, _, h⟩ := bind_eq_error_iff.mp h
        · exact .project hshared ((exists_not_reported_read_iff _).mp ⟨f, h, hreported⟩)
        · cases h
    · obtain ⟨sharedFields, hshared, hload⟩ := bind_eq_ok_iff.mp hload
      obtain ⟨projectFields, hproject, hload⟩ := bind_eq_ok_iff.mp hload
      obtain rfl := Except.ok.inj hload
      rw [← faultOf?_eq_some_iff, faultOf?_ofFields] at h
      obtain ⟨before, check, after, horder, hf, hbefore⟩ := List.findSome?_eq_some_iff.mp h
      exact .unforeseen hshared hproject horder hbefore (unforeseen_iff.mp ⟨f, hf, hreported⟩)

/-- Two files lead to settings, or to a message about what is wrong with them, unless their bytes
are no texts, a decimal number in them has too many digits, or the first failing check does not
foresee the data. -/
theorem reports_unless_escapes (shared project : Source) :
    ((∃ s, ofSources shared project = .ok s) ∨
        ∃ f, ofSources shared project = .error f ∧ f.Reported) ↔
      ¬ Escapes shared project := by
  rw [escapes_iff]
  cases ofSources shared project <;> simp

/-- A number in the place of the section of waits comes through. -/
theorem reports_unless_escapes_of_number : Escapes .missing (.file "wait = 5\n".toUTF8) := by
  by_contra hforeseen
  have hfault : (faultOf? (ofSources .missing (.file "wait = 5\n".toUTF8))).any (fun f =>
      match f with
      | .defect .missingPart => true
      | _ => false) = true := by decide +kernel
  obtain ⟨s, hs⟩ | ⟨f, hf, hreported⟩ := (reports_unless_escapes _ _).mpr hforeseen
  · rw [hs] at hfault
    cases hfault
  · rw [hf] at hfault
    simp only [faultOf?, Option.any_some] at hfault
    split at hfault
    · simp [Fault.reported_iff] at hreported
    · cases hfault

end Vigil.Settings
