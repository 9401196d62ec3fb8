import Mathlib.Tactic.SplitIfs
import Vigil.Toml.Document

/-!
# How the reading of a text fails

A text that breaks the rules of the format is turned down.  Apart from that there is one reason only
why a text is not read: a whole number in it has too many decimal digits.  A number of any size can
still be written in another base, where no such limit holds.
-/

namespace Vigil.Toml

open Number (digitLimit)

/-- How the reading of a text can fail. -/
inductive ReadError.OfText : ReadError → Prop
  | malformed : OfText .malformed
  | overlong {digits : Nat} (h : digitLimit < digits) : OfText (.defect (.unreadable digits))

/-- A reader fails only as the reading of a text can fail. -/
def FailsAsText {α : Type} (read : Except ReadError α) : Prop :=
  ∀ e, read = .error e → e.OfText

namespace FailsAsText

variable {α β : Type}

theorem ok (a : α) : FailsAsText (.ok a) := fun _ h => by cases h

theorem malformed : FailsAsText (.error .malformed : Except ReadError α) := by
  rintro e ⟨⟩
  exact .malformed

theorem required (found : Option α) : FailsAsText (Toml.required found) := by
  cases found with
  | none => exact malformed
  | some a => exact ok a

theorem bind {read : Except ReadError α} {next : α → Except ReadError β} (h : FailsAsText read)
    (hnext : ∀ a, FailsAsText (next a)) : FailsAsText (read >>= next) := by
  cases read with
  | ok a => exact hnext a
  | error e =>
      rintro _ ⟨⟩
      exact h e rfl

end FailsAsText

/-! ### Numbers -/

/-- A whole number is turned down for its length only. -/
theorem overlong_of_readInt? {cs : List Char} {d : Defect}
    (h : Number.readInt? cs = some (.error d)) :
    ∃ digits, digitLimit < digits ∧ d = .unreadable digits := by
  rw [Number.readInt?] at h
  split at h
  split_ifs at h with hempty hlength
  · cases h
  · cases h
  · cases h
    exact ⟨_, Nat.lt_of_not_le hlength, rfl⟩

theorem overlong_of_decimalNumber {cs rest : List Char} {d : Defect}
    (h : decimalNumber cs = some (.error d, rest)) :
    ∃ digits, digitLimit < digits ∧ d = .unreadable digits := by
  unfold decimalNumber at h
  extract_lets isDigit at h
  split at h
  extract_lets finish at h
  have hfinish (read : List Char × List Char) (hread : finish read = some (.error d, rest)) :
      ∃ digits, digitLimit < digits ∧ d = .unreadable digits := by
    simp only [finish] at hread
    split_ifs at hread
    · obtain ⟨found, hfound, hread⟩ := Option.bind_eq_some_iff.mp hread
      cases found with
      | ok n => cases hread
      | error d' =>
          cases hread
          exact overlong_of_readInt? hfound
    · obtain ⟨_, -, hread⟩ := Option.bind_eq_some_iff.mp hread
      cases hread
  split at h
  all_goals
    obtain ⟨read, -, h⟩ := Option.bind_eq_some_iff.mp h
    exact hfinish read h

theorem failsAsText_scalar (cs : List Char) : FailsAsText (scalar cs) := by
  rw [scalar]
  split
  · exact .ok _
  · split
    · exact .required _
    · split
      · exact .ok _
      · split
        · exact .ok _
        · next hdecimal =>
            obtain ⟨digits, hdigits, rfl⟩ := overlong_of_decimalNumber hdecimal
            rintro _ ⟨⟩
            exact .overlong hdigits
        · exact .required _

/-! ### Values and lines -/

/-- The readers of values, of the items of lists and of the entries of tables call each other. -/
theorem failsAsText_of_readers (fuel : Nat) :
    (∀ cs, FailsAsText (value fuel cs)) ∧ (∀ cs, FailsAsText (listItems fuel cs)) ∧
      ∀ entries cs, FailsAsText (inlineItems fuel entries cs) := by
  induction fuel with
  | zero =>
      refine ⟨fun _ => ?_, fun _ => ?_, fun _ _ => ?_⟩
      · rw [value]; exact .malformed
      · rw [listItems]; exact .malformed
      · rw [inlineItems]; exact .malformed
  | succ fuel ih =>
      obtain ⟨ihvalue, ihlist, ihtable⟩ := ih
      refine ⟨fun cs => ?_, fun cs => ?_, fun entries cs => ?_⟩
      · unfold value
        split
        · exact .bind (.required _) fun _ => .ok _
        · split
          · refine .bind (.required _) fun _ => ?_
            split
            · exact .ok _
            · exact .bind (ihlist _) fun _ => .ok _
          · split
            · exact .ok _
            · exact .bind (ihtable _ _) fun _ => .ok _
          · exact failsAsText_scalar cs
      · unfold listItems
        refine .bind (ihvalue _) fun _ => .bind (.required _) fun _ => ?_
        split
        · exact .ok _
        · refine .bind (.required _) fun _ => ?_
          split
          · exact .ok _
          · exact .bind (ihlist _) fun _ => .ok _
        · exact .malformed
      · unfold inlineItems
        refine .bind (.required _) fun _ => .bind (.required _) fun _ => .bind (ihvalue _) fun _ =>
          .bind (.required _) fun _ => ?_
        split
        · exact .ok _
        · exact ihtable _ _
        · exact .malformed

theorem failsAsText_statement (fuel : Nat) (cs : List Char) : FailsAsText (statement fuel cs) := by
  unfold statement
  split
  · exact .ok _
  · exact .ok _
  · exact .ok _
  · exact .bind (.required _) fun _ => .bind (.required _) fun _ => .bind (.required _) fun _ =>
      .ok _
  · exact .bind (.required _) fun _ => .bind (.required _) fun _ => .ok _
  · exact .bind (.required _) fun _ => .bind (.required _) fun _ =>
      .bind ((failsAsText_of_readers fuel).1 _) fun _ => .ok _

theorem failsAsText_lines (fuel : Nat) (d : Draft) (cs : List Char) :
    FailsAsText (lines fuel d cs) := by
  induction fuel generalizing d cs with
  | zero => exact .malformed
  | succ fuel ih =>
      unfold lines
      refine .bind (failsAsText_statement _ _) fun ⟨found, rest⟩ => .bind ?_ fun d => ?_
      · cases found with
        | none => exact .ok d
        | some line => exact .required _
      · refine .bind (.required _) fun _ => ?_
        split
        · exact .ok d
        · exact ih d _
        · exact .malformed

/-- A text that is not read breaks the rules or has a number of too many digits in it. -/
theorem failsAsText_ofText (text : String) : FailsAsText (ofText text) :=
  .bind (failsAsText_lines _ _ _) fun _ => .ok _

end Vigil.Toml
