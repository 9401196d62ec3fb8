import Vigil.Proofs.Number.Range
import Vigil.Proofs.Settings.Sections

/-!
# The checks of settings

Settings are checked part by part, and the first part that is wrong ends the check.  Here each part
is described by itself: what it is when it is right, and what is said of it when it is wrong.  The
settings as a whole are then turned down for what the first failing check finds.
-/

namespace Vigil.Settings

open Number (Amount nearestInt? firstTooLarge)

/-! ### Numbers of seconds -/

/-- A number of seconds as it is given: nothing, or a number that is not below zero and that a
double can hold. -/
inductive GivenSeconds : Option Value → Option Float → Prop
  | missing : GivenSeconds none none
  /-- Null counts as missing. -/
  | null : GivenSeconds (some .null) none
  | whole {n : Int} {x : Float} (hn : 0 ≤ n) (hx : nearestInt? n = some x) :
      GivenSeconds (some (.whole n)) (some x)
  | real {x : Float} (hx : ¬ x < 0) : GivenSeconds (some (.real x)) (some x)

/-- What is wrong with a value that is no number of seconds. -/
inductive MistakenSeconds (key : String) : Option Value → Fault → Prop
  | kind {v : Value} (hnull : v ≠ .null) (hwhole : ∀ n, v ≠ .whole n) (hreal : ∀ x, v ≠ .real x) :
      MistakenSeconds key (some v) (.notSeconds key v)
  | belowWhole {n : Int} (hn : n < 0) :
      MistakenSeconds key (some (.whole n)) (.negativeSeconds key (.whole n))
  | belowReal {x : Float} (hx : x < 0) :
      MistakenSeconds key (some (.real x)) (.negativeSeconds key (.real x))
  | tooLarge {n : Int} (hn : (firstTooLarge : Int) ≤ n) :
      MistakenSeconds key (some (.whole n)) (.defect .tooLarge)

theorem secondsOf_eq_ok_iff {key : String} {a : Amount} {x : Float} :
    secondsOf key a = .ok x ↔ a.isNegative = false ∧ a.toFloat? = some x := by
  rw [secondsOf]
  cases a.isNegative <;> cases a.toFloat? <;> simp

theorem secondsOf_eq_error_iff {key : String} {a : Amount} {f : Fault} :
    secondsOf key a = .error f ↔
      a.isNegative = true ∧ f = .negativeSeconds key a ∨
        a.isNegative = false ∧ a.toFloat? = none ∧ f = .defect .tooLarge := by
  rw [secondsOf]
  cases a.isNegative <;> cases a.toFloat? <;> simp [eq_comm]

theorem seconds?_eq_ok_iff {fields : Fields} {key : String} {given : Option Float} :
    seconds? fields key = .ok given ↔ GivenSeconds (Fields.get? fields key) given := by
  rw [seconds?]
  generalize Fields.get? fields key = v
  constructor
  · intro h
    rcases v with _ | _ | _ | n | x | _
    case none => cases h; exact .missing
    case some.null => cases h; exact .null
    case some.whole =>
      obtain ⟨x, hx, rfl⟩ := map_some_eq_ok_iff.mp h
      obtain ⟨hn, hx⟩ := secondsOf_eq_ok_iff.mp hx
      rw [Bool.eq_false_iff, ne_eq, Amount.isNegative_whole_iff, not_lt] at hn
      exact .whole hn hx
    case some.real =>
      obtain ⟨y, hy, rfl⟩ := map_some_eq_ok_iff.mp h
      obtain ⟨hx, hy⟩ := secondsOf_eq_ok_iff.mp hy
      obtain rfl := Option.some.inj hy
      rw [Bool.eq_false_iff, ne_eq, Amount.isNegative_real_iff] at hx
      exact .real hx
    all_goals cases h
  · rintro (_ | _ | ⟨hn, hx⟩ | hx)
    · rfl
    · rfl
    · refine map_some_eq_ok_iff.mpr ⟨_, secondsOf_eq_ok_iff.mpr ⟨?_, hx⟩, rfl⟩
      rwa [Bool.eq_false_iff, ne_eq, Amount.isNegative_whole_iff, not_lt]
    · refine map_some_eq_ok_iff.mpr ⟨_, secondsOf_eq_ok_iff.mpr ⟨?_, rfl⟩, rfl⟩
      rwa [Bool.eq_false_iff, ne_eq, Amount.isNegative_real_iff]

theorem seconds?_eq_error_iff {fields : Fields} {key : String} {f : Fault} :
    seconds? fields key = .error f ↔ MistakenSeconds key (Fields.get? fields key) f := by
  rw [seconds?]
  generalize Fields.get? fields key = v
  constructor
  · intro h
    rcases v with _ | _ | _ | n | x | _
    case none => cases h
    case some.null => cases h
    case some.whole =>
      rcases secondsOf_eq_error_iff.mp (map_some_eq_error_iff.mp h) with
        ⟨hn, rfl⟩ | ⟨hn, hlarge, rfl⟩
      · exact .belowWhole (Amount.isNegative_whole_iff.mp hn)
      · rw [Bool.eq_false_iff, ne_eq, Amount.isNegative_whole_iff, not_lt] at hn
        have hlarge := Number.nearestInt?_eq_none_iff.mp hlarge
        exact .tooLarge (by omega)
    case some.real =>
      rcases secondsOf_eq_error_iff.mp (map_some_eq_error_iff.mp h) with ⟨hx, rfl⟩ | ⟨_, hnone, _⟩
      · exact .belowReal (Amount.isNegative_real_iff.mp hx)
      · cases hnone
    all_goals
      cases h
      exact .kind (by simp) (by simp) (by simp)
  · rintro (⟨hnull, hwhole, hreal⟩ | hn | hx | hn)
    · split <;> simp_all
    · exact map_some_eq_error_iff.mpr (secondsOf_eq_error_iff.mpr
        (.inl ⟨Amount.isNegative_whole_iff.mpr hn, rfl⟩))
    · exact map_some_eq_error_iff.mpr (secondsOf_eq_error_iff.mpr
        (.inl ⟨Amount.isNegative_real_iff.mpr hx, rfl⟩))
    · refine map_some_eq_error_iff.mpr (secondsOf_eq_error_iff.mpr (.inr ⟨?_, ?_, rfl⟩))
      · rw [Bool.eq_false_iff, ne_eq, Amount.isNegative_whole_iff]
        omega
      · exact Number.nearestInt?_eq_none_iff.mpr (by omega)

/-! ### The log -/

/-- The level that is asked for: it may be written in small letters. -/
inductive GivenLevel : Option Value → Log.Level → Prop
  | missing : GivenLevel none Log.Config.defaultLevel
  | named {v : Value} {text : String} {level : Log.Level} (hshown : v.shown = .ok text)
      (hlevel : level ∈ Log.Level.selectable) (hname : level.name = Text.upperCase text) :
      GivenLevel (some v) level

/-- What is wrong with a value that names no level. -/
inductive MistakenLevel : Option Value → Fault → Prop
  | unknown {v : Value} {text : String} (hshown : v.shown = .ok text)
      (h : ∀ level ∈ Log.Level.selectable, level.name ≠ Text.upperCase text) :
      MistakenLevel (some v) (.unknownLevel v)
  | unwritable {v : Value} (hv : ¬ v.IsWritable) :
      MistakenLevel (some v) (.defect .unwritable)

/-- The number of old log files that is asked for. -/
inductive GivenRetention : Option Value → Nat → Prop
  | missing : GivenRetention none Log.Config.defaultRetention
  | whole (n : Nat) : GivenRetention (some (.whole n)) n

/-- What is wrong with a value that is no number of files. -/
inductive MistakenRetention : Option Value → Fault → Prop
  | kind {v : Value} (h : ∀ n : Nat, v ≠ .whole n) : MistakenRetention (some v) (.badRetention v)

/-- The text that says when a new log file is begun. -/
inductive GivenRotation : Option Value → String → Prop
  | missing : GivenRotation none Log.Config.defaultRotation
  | shown {v : Value} {text : String} (hshown : v.shown = .ok text) : GivenRotation (some v) text

/-- What is wrong with a value that is no such text: it cannot be written as one. -/
inductive MistakenRotation : Option Value → Fault → Prop
  | unwritable {v : Value} (hv : ¬ v.IsWritable) :
      MistakenRotation (some v) (.defect .unwritable)

theorem selectable?_eq_some_iff {name : String} {level : Log.Level} :
    Log.Level.selectable? name = some level ↔
      level ∈ Log.Level.selectable ∧ level.name = name := by
  constructor
  · intro h
    exact ⟨List.mem_of_find?_eq_some h, by simpa using List.find?_some h⟩
  · rintro ⟨hmem, rfl⟩
    revert level
    decide

theorem selectable?_eq_none_iff {name : String} :
    Log.Level.selectable? name = none ↔ ∀ level ∈ Log.Level.selectable, level.name ≠ name := by
  simp [Log.Level.selectable?]

theorem mapError_eq_ok_iff {α : Type} {x : Except Defect α} {a : α} :
    x.mapError Fault.defect = .ok a ↔ x = .ok a := by
  cases x <;> simp [Except.mapError]

theorem mapError_eq_error_iff {α : Type} {x : Except Defect α} {f : Fault} :
    x.mapError Fault.defect = .error f ↔ ∃ d, x = .error d ∧ f = .defect d := by
  cases x <;> simp [Except.mapError, eq_comm]

/-- A value has no text if and only if it cannot be written. -/
theorem shown_fault_iff {v : Value} {f : Fault} :
    v.shown.mapError Fault.defect = .error f ↔ ¬ v.IsWritable ∧ f = .defect .unwritable := by
  simp only [mapError_eq_error_iff, Value.shown_eq_error_iff]
  constructor
  · rintro ⟨_, ⟨rfl, hv⟩, rfl⟩
    exact ⟨hv, rfl⟩
  · rintro ⟨hv, rfl⟩
    exact ⟨_, ⟨rfl, hv⟩, rfl⟩

theorem levelOf_eq_ok_iff {fields : Fields} {level : Log.Level} :
    levelOf fields = .ok level ↔ GivenLevel (Fields.get? fields "level") level := by
  rw [levelOf]
  generalize Fields.get? fields "level" = v
  constructor
  · intro h
    split at h
    · obtain rfl := Except.ok.inj h
      exact .missing
    · obtain ⟨text, hshown, h⟩ := bind_eq_ok_iff.mp h
      split at h
      case h_1 hfound =>
        obtain rfl := Except.ok.inj h
        obtain ⟨hlevel, hname⟩ := selectable?_eq_some_iff.mp hfound
        exact .named (mapError_eq_ok_iff.mp hshown) hlevel hname
      case h_2 => cases h
  · rintro (_ | ⟨hshown, hlevel, hname⟩)
    · rfl
    · refine bind_eq_ok_iff.mpr ⟨_, mapError_eq_ok_iff.mpr hshown, ?_⟩
      simp only [selectable?_eq_some_iff.mpr ⟨hlevel, hname⟩]
      rfl

theorem levelOf_eq_error_iff {fields : Fields} {f : Fault} :
    levelOf fields = .error f ↔ MistakenLevel (Fields.get? fields "level") f := by
  rw [levelOf]
  generalize Fields.get? fields "level" = v
  constructor
  · intro h
    split at h
    · cases h
    · obtain h | ⟨text, hshown, h⟩ := bind_eq_error_iff.mp h
      · obtain ⟨hv, rfl⟩ := shown_fault_iff.mp h
        exact .unwritable hv
      · split at h
        case h_1 => cases h
        case h_2 hfound =>
          obtain rfl := Except.error.inj h
          exact .unknown (mapError_eq_ok_iff.mp hshown) (selectable?_eq_none_iff.mp hfound)
  · rintro (⟨hshown, h⟩ | hv)
    · refine bind_eq_error_iff.mpr (.inr ⟨_, mapError_eq_ok_iff.mpr hshown, ?_⟩)
      simp only [selectable?_eq_none_iff.mpr h]
      rfl
    · exact bind_eq_error_iff.mpr (.inl (shown_fault_iff.mpr ⟨hv, rfl⟩))

theorem rotationOf_eq_ok_iff {fields : Fields} {text : String} :
    rotationOf fields = .ok text ↔ GivenRotation (Fields.get? fields "rotation") text := by
  rw [rotationOf]
  generalize Fields.get? fields "rotation" = v
  constructor
  · intro h
    split at h
    · obtain rfl := Except.ok.inj h
      exact .missing
    · exact .shown (mapError_eq_ok_iff.mp h)
  · rintro (_ | hshown)
    · rfl
    · exact mapError_eq_ok_iff.mpr hshown

theorem rotationOf_eq_error_iff {fields : Fields} {f : Fault} :
    rotationOf fields = .error f ↔ MistakenRotation (Fields.get? fields "rotation") f := by
  rw [rotationOf]
  generalize Fields.get? fields "rotation" = v
  constructor
  · intro h
    split at h
    · cases h
    · obtain ⟨hv, rfl⟩ := shown_fault_iff.mp h
      exact .unwritable hv
  · rintro ⟨hv⟩
    exact shown_fault_iff.mpr ⟨hv, rfl⟩

theorem retentionOf_eq_ok_iff {fields : Fields} {n : Nat} :
    retentionOf fields = .ok n ↔ GivenRetention (Fields.get? fields "retention") n := by
  rw [retentionOf]
  generalize Fields.get? fields "retention" = v
  constructor
  · intro h
    split at h
    · obtain rfl := Except.ok.inj h
      exact .missing
    · split_ifs at h with hm
      obtain rfl := Except.ok.inj h
      have hwhole := GivenRetention.whole (Int.toNat ‹Int›)
      rwa [Int.toNat_of_nonneg (not_lt.mp hm)] at hwhole
    · cases h
  · rintro (_ | n)
    · rfl
    · simp

theorem retentionOf_eq_error_iff {fields : Fields} {f : Fault} :
    retentionOf fields = .error f ↔ MistakenRetention (Fields.get? fields "retention") f := by
  rw [retentionOf]
  generalize Fields.get? fields "retention" = v
  constructor
  · intro h
    split at h
    case h_1 => cases h
    case h_2 =>
      split_ifs at h with hm
      obtain rfl := Except.error.inj h
      refine .kind fun n hn => ?_
      obtain rfl := Value.whole.inj hn
      omega
    case h_3 hne =>
      obtain rfl := Except.error.inj h
      exact .kind fun n => hne n
  · rintro @⟨v, h⟩
    cases v with
    | whole m =>
        have hm : m < 0 := not_le.mp fun hm => h m.toNat (by rw [Int.toNat_of_nonneg hm])
        simp [hm]
    | _ => rfl

/-! ### All checks -/

/-- One part of the settings that is checked. -/
inductive Check where
  /-- The parameters of the connection are fields, and known ones. -/
  | connection
  | waitTable
  | seconds (key : String)
  /-- The keys of the log section are known.  It need not be a table for that. -/
  | logKeys
  | logTable
  | level
  | retention
  | rotation
  deriving DecidableEq, Repr

/-- What a part is turned down for. -/
def faultOf? {α : Type} : Except Fault α → Option Fault
  | .ok _ => none
  | .error f => some f

@[simp]
theorem faultOf?_eq_some_iff {α : Type} {x : Except Fault α} {f : Fault} :
    faultOf? x = some f ↔ x = .error f := by
  cases x <;> simp [faultOf?]

@[simp]
theorem faultOf?_eq_none_iff {α : Type} {x : Except Fault α} :
    faultOf? x = none ↔ ∃ a, x = .ok a := by
  cases x <;> simp [faultOf?]

namespace Check

/-- The checks in the order in which they are made. -/
def inOrder : List Check :=
  [connection, waitTable, seconds "initial_wait", seconds "poll_interval", seconds "timeout",
    logKeys, logTable, level, retention, rotation]

/-- A check of the fields of a section; it finds nothing wrong with what is no table. -/
def inTable? (check : Fields → Option Fault) : Value → Option Fault
  | .table fields => check fields
  | _ => none

theorem inTable?_eq_some_iff {v : Value} {check : Fields → Option Fault} {f : Fault} :
    inTable? check v = some f ↔ ∃ fields, v = .table fields ∧ check fields = some f := by
  cases v <;> simp [inTable?]

/-- What a check finds wrong with the table of the configuration files. -/
def fault? (fields : Fields) : Check → Option Fault
  | connection => faultOf? (connectionOf (sectionOf fields "eks"))
  | waitTable => faultOf? (tableOf (sectionOf fields "wait"))
  | seconds key => inTable? (fun wait => faultOf? (seconds? wait key)) (sectionOf fields "wait")
  | logKeys =>
      faultOf? do requireKnown "log" Log.Config.keys (← namesOf (sectionOf fields "log"))
  | logTable => faultOf? (tableOf (sectionOf fields "log"))
  | level => inTable? (fun log => faultOf? (levelOf log)) (sectionOf fields "log")
  | retention => inTable? (fun log => faultOf? (retentionOf log)) (sectionOf fields "log")
  | rotation => inTable? (fun log => faultOf? (rotationOf log)) (sectionOf fields "log")

end Check

/-- Settings are turned down for what the first failing check finds. -/
theorem faultOf?_ofFields (fields : Fields) :
    faultOf? (ofFields fields) = Check.inOrder.findSome? (Check.fault? fields) := by
  simp only [ofFields, logOf, Check.inOrder, Check.fault?, List.findSome?_cons, List.findSome?_nil]
  rcases connectionOf (sectionOf fields "eks") with f | connection
  · rfl
  rcases hwait : tableOf (sectionOf fields "wait") with f | wait
  · rfl
  rw [tableOf_eq_ok_iff.mp hwait]
  dsimp only [bind, Except.bind, Check.inTable?]
  rcases seconds? wait "initial_wait" with f | initialWait
  · rfl
  rcases seconds? wait "poll_interval" with f | pollInterval
  · rfl
  rcases seconds? wait "timeout" with f | timeout
  · rfl
  rcases namesOf (sectionOf fields "log") with f | names
  · rfl
  dsimp only [bind, Except.bind]
  rcases requireKnown "log" Log.Config.keys names with f | _
  · rfl
  rcases hlog : tableOf (sectionOf fields "log") with f | log
  · rfl
  rw [tableOf_eq_ok_iff.mp hlog]
  dsimp only [bind, Except.bind, Check.inTable?]
  rcases levelOf log with f | level
  · rfl
  rcases retentionOf log with f | retention
  · rfl
  rcases rotationOf log with f | rotation
  · rfl
  rfl

/-- What settings are made of when no check fails. -/
theorem ofFields_eq_ok_iff {fields : Fields} {s : Settings} :
    ofFields fields = .ok s ↔
      connectionOf (sectionOf fields "eks") = .ok s.connection ∧
        (∃ wait, tableOf (sectionOf fields "wait") = .ok wait ∧
          (∃ given, seconds? wait "initial_wait" = .ok given ∧
            s.initialWait = given.getD Watch.defaultInitialWait) ∧
          (∃ given, seconds? wait "poll_interval" = .ok given ∧
            s.pollInterval = given.getD Watch.defaultPollInterval) ∧
          seconds? wait "timeout" = .ok s.timeout) ∧
        logOf (sectionOf fields "log") = .ok s.log := by
  simp only [ofFields, bind_eq_ok_iff, pure, Except.pure, Except.ok.injEq]
  constructor
  · rintro ⟨connection, hconnection, wait, hwait, initialWait, hinitialWait, pollInterval,
      hpollInterval, timeout, htimeout, log, hlog, rfl⟩
    exact ⟨hconnection, ⟨wait, hwait, ⟨initialWait, hinitialWait, rfl⟩,
      ⟨pollInterval, hpollInterval, rfl⟩, htimeout⟩, hlog⟩
  · rintro ⟨hconnection, ⟨wait, hwait, ⟨initialWait, hinitialWait, hinitial⟩,
      ⟨pollInterval, hpollInterval, hpoll⟩, htimeout⟩, hlog⟩
    refine ⟨_, hconnection, wait, hwait, initialWait, hinitialWait, pollInterval, hpollInterval, _,
      htimeout, _, hlog, ?_⟩
    rw [← hinitial, ← hpoll]

end Vigil.Settings
