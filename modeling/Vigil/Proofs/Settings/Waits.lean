import Vigil.Proofs.Settings.Checks
import Vigil.Watch.World

/-!
# Waits that pass their checks

A wait is turned down if it is below zero, which is not the same as being accepted only if it is at
least zero: an undefined number is neither.  It is the only exception, so the waits of settings are
at least zero exactly as far as the files hold no undefined number in their places, and the same is
true of the parameters of a watch.  A watch whose interval is an undefined number does not pause.
-/

namespace Vigil

open Number (Amount)

namespace Settings

/-! ### The section of waits -/

/-- The value is an undefined number. -/
def isUndefined : Option Value → Bool
  | some (.real x) => x.isNaN
  | _ => false

/-- A number of seconds that is accepted is at least zero, unless it is undefined. -/
theorem zero_le_iff_of_given {v : Option Value} {given : Option Float} (h : GivenSeconds v given) :
    (∀ x, given = some x → 0 ≤ x) ↔ isUndefined v = false := by
  cases h with
  | missing => simp [isUndefined]
  | null => simp [isUndefined]
  | whole hn hx => simpa [isUndefined] using Number.zero_le_of_nearestInt? hn hx
  | real hx => simp [isUndefined, Number.zero_le_iff_not_lt, hx]

/-- The same with a default that is at least zero. -/
theorem zero_le_getD_iff_of_given {v : Option Value} {given : Option Float}
    (h : GivenSeconds v given) {default : Float} (hdefault : 0 ≤ default) :
    0 ≤ given.getD default ↔ isUndefined v = false := by
  rw [← zero_le_iff_of_given h]
  cases given <;> simp [hdefault]

/-- The waits of settings are at least zero as far as the table of the files holds no undefined
numbers in their places. -/
structure AtLeastZeroUnlessUndefined (fields : Fields) (s : Settings) : Prop where
  initialWait : 0 ≤ s.initialWait ↔ isUndefined (fields.at? ["wait", "initial_wait"]) = false
  pollInterval : 0 ≤ s.pollInterval ↔ isUndefined (fields.at? ["wait", "poll_interval"]) = false
  timeout : (∀ seconds, s.timeout = some seconds → 0 ≤ seconds) ↔
    isUndefined (fields.at? ["wait", "timeout"]) = false

theorem atLeastZeroUnlessUndefined_of_ofFields {fields : Fields} {s : Settings}
    (h : ofFields fields = .ok s) : AtLeastZeroUnlessUndefined fields s := by
  obtain ⟨-, ⟨wait, hwait, ⟨initialWait, hinitialWait, hinitial⟩,
    ⟨pollInterval, hpollInterval, hpoll⟩, htimeout⟩, -⟩ := ofFields_eq_ok_iff.mp h
  have hplace := at?_section_of_table (tableOf_eq_ok_iff.mp hwait)
  constructor
  · rw [hplace, hinitial]
    exact zero_le_getD_iff_of_given (seconds?_eq_ok_iff.mp hinitialWait) (by decide +kernel)
  · rw [hplace, hpoll]
    exact zero_le_getD_iff_of_given (seconds?_eq_ok_iff.mp hpollInterval) (by decide +kernel)
  · rw [hplace]
    exact zero_le_iff_of_given (seconds?_eq_ok_iff.mp htimeout)

end Settings

/-! ### The parameters of a watch -/

namespace WaitConfig

/-- Parameters that are accepted have waits that are not below zero. -/
theorem isNegative_of_make {ω : Type} [Wait ω] {resource desired : Option Label}
    {failures : List String} {initialWait pollInterval : Option ω} {config : WaitConfig ω}
    (h : make resource desired failures initialWait pollInterval = .ok config) :
    Wait.isNegative config.initialWait = false ∧ Wait.isNegative config.pollInterval = false := by
  rcases resource with _ | resource
  · cases h
  rcases desired with _ | desired <;> rcases initialWait with _ | initialWait <;>
    rcases pollInterval with _ | pollInterval <;>
    simp only [make, bind, Except.bind, throw, throwThe, MonadExceptOf.throw, pure,
      Except.pure] at h <;>
    split_ifs at h
  -- all parameters are given, and none of the checks fails
  obtain rfl := Except.ok.inj h
  exact ⟨Bool.eq_false_iff.mpr ‹_›, Bool.eq_false_iff.mpr ‹_›⟩

end WaitConfig

/-- A pause of an undefined number of seconds is none: the run goes on at once. -/
theorem Watch.World.pause_of_undefined {τ : Type} [Clock τ] [Spans Amount τ]
    (plan : Watch.Plan τ Amount) (w : Watch.World τ Amount) {delay : Amount}
    (h : delay.Undefined) : w.pause plan delay = (w.record (.paused delay)).decide plan := by
  have hnegative : delay.isNegative = false := Amount.isNegative_eq_false_iff.mpr (.inr h)
  have hpositive : ¬ Wait.isPositive delay = true := fun hpositive =>
    ((Amount.isPositive_iff_of_not_negative hnegative).mp hpositive).2 h
  rw [pause, if_neg hpositive]

/-! ### The whole of it -/

/-- Waits that pass their checks are at least zero unless they are undefined numbers: the waits of
settings as the files give them, and those of the parameters of a watch, which pauses between its
observations unless its interval is zero or undefined. -/
theorem Settings.accepted_waits (shared project : Source) (s : Settings)
    (resource desired : Option Label) (failures : List String)
    (initialWait pollInterval : Option Amount) (config : WaitConfig Amount) :
    (ofSources shared project = .ok s →
      ∃ fields, load shared project = .ok fields ∧ AtLeastZeroUnlessUndefined fields s) ∧
    (WaitConfig.make resource desired failures initialWait pollInterval = .ok config →
      (config.initialWait.AtLeastZero ↔ ¬ config.initialWait.Undefined) ∧
      (config.pollInterval.AtLeastZero ↔ ¬ config.pollInterval.Undefined) ∧
      (Wait.isPositive config.pollInterval = true ↔
        ¬ config.pollInterval.IsZero ∧ ¬ config.pollInterval.Undefined)) := by
  constructor
  · intro h
    obtain ⟨fields, hload, hfields⟩ := bind_eq_ok_iff.mp h
    exact ⟨fields, hload, atLeastZeroUnlessUndefined_of_ofFields hfields⟩
  · intro h
    obtain ⟨hinitial, hpoll⟩ := WaitConfig.isNegative_of_make h
    exact ⟨Amount.atLeastZero_iff_of_not_negative hinitial,
      Amount.atLeastZero_iff_of_not_negative hpoll, Amount.isPositive_iff_of_not_negative hpoll⟩

/-- A file whose interval is an undefined number is accepted, and so is such an interval itself. -/
theorem Settings.accepted_waits_of_undefined_interval :
    (∃ s, ofSources .missing (.file "[wait]\npoll_interval = nan\n".toUTF8) = .ok s ∧
      0 ≤ s.initialWait ∧ ¬ 0 ≤ s.pollInterval) ∧
    ∃ config : WaitConfig Amount,
      WaitConfig.make (some (.plain "demo")) (some (.plain "ACTIVE")) [] (some (.whole 0))
          (some (.real (0.0 / 0.0))) = .ok config ∧
        ¬ config.pollInterval.AtLeastZero ∧ Wait.isPositive config.pollInterval = false := by
  have hinitial : Wait.isNegative (Amount.whole 0) = false := by decide +kernel
  have hpoll : Wait.isNegative (Amount.real (0.0 / 0.0)) = false := by decide +kernel
  have hundefined : (Amount.real (0.0 / 0.0)).Undefined := by
    rw [Amount.Undefined]
    decide +kernel
  have hconfig : WaitConfig.make (some (.plain "demo")) (some (.plain "ACTIVE")) []
      (some (.whole 0)) (some (.real (0.0 / 0.0))) =
      .ok ⟨"demo", .plain "ACTIVE", [], Amount.whole 0, .real (0.0 / 0.0)⟩ := by
    simp [WaitConfig.make, hinitial, hpoll, Label.text]
    rfl
  obtain ⟨s, hs⟩ : ∃ s, ofSources .missing
      (.file "[wait]\npoll_interval = nan\n".toUTF8) = .ok s :=
    faultOf?_eq_none_iff.mp (Option.isNone_iff_eq_none.mp (by decide +kernel))
  obtain ⟨hsources, hparameters⟩ := accepted_waits _ _ s _ _ _ _ _ _
  obtain ⟨fields, hload, hwaits⟩ := hsources hs
  obtain ⟨-, hzero, hpositive⟩ := hparameters hconfig
  have hfields : (load .missing
      (.file "[wait]\npoll_interval = nan\n".toUTF8)).toOption.any (fun fields =>
        !isUndefined (fields.at? ["wait", "initial_wait"]) &&
          isUndefined (fields.at? ["wait", "poll_interval"])) = true := by decide +kernel
  rw [hload] at hfields
  obtain ⟨hinitial, hpoll⟩ := Bool.and_eq_true_iff.mp hfields
  refine ⟨⟨s, hs, hwaits.initialWait.mpr (by simpa using hinitial), fun hzero => ?_⟩, _, hconfig,
    fun h => hzero.mp h hundefined, Bool.eq_false_iff.mpr fun h => (hpositive.mp h).2 hundefined⟩
  rw [hwaits.pollInterval.mp hzero] at hpoll
  cases hpoll

end Vigil
