import Vigil.Value

/-!
# Values that can be written

A value is shown in messages and in lines of the log.  That fails for one reason only: somewhere in
the value, however deep, stands a whole number of too many digits.
-/

namespace Vigil

open Number (digitLimit pow10 wholeText)

/-! ### One step after another -/

section Steps

variable {α β ε : Type} {x : Except ε α} {next : α → Except ε β}

theorem bind_eq_ok_iff {b : β} : (x >>= next) = .ok b ↔ ∃ a, x = .ok a ∧ next a = .ok b := by
  cases x <;> simp [bind, Except.bind]

theorem bind_eq_error_iff {e : ε} :
    (x >>= next) = .error e ↔ x = .error e ∨ ∃ a, x = .ok a ∧ next a = .error e := by
  cases x <;> simp [bind, Except.bind]

end Steps

/-! ### Texts of whole numbers -/

/-- A text that shows some whole numbers: it is there if all of them can be written. -/
def Spells (text : Except Defect String) (wholes : List Int) : Prop :=
  (∃ s, text = .ok s) ∧ (∀ n ∈ wholes, n.natAbs < pow10 digitLimit) ∨
    text = .error .unwritable ∧ ∃ n ∈ wholes, pow10 digitLimit ≤ n.natAbs

namespace Spells

variable {text : Except Defect String} {wholes more : List Int}

theorem ok (s : String) : Spells (.ok s) [] := .inl ⟨⟨s, rfl⟩, nofun⟩

theorem whole (n : Int) : Spells (wholeText n) [n] := by
  rcases Nat.lt_or_ge n.natAbs (pow10 digitLimit) with hlt | hle
  · exact .inl ⟨⟨_, Number.wholeText_of_lt hlt⟩, by simpa using hlt⟩
  · exact .inr ⟨Number.wholeText_of_le hle, n, List.mem_singleton_self n, hle⟩

theorem bind {next : String → Except Defect String} (h : Spells text wholes)
    (hnext : ∀ s, Spells (next s) more) : Spells (text >>= next) (wholes ++ more) := by
  rcases h with ⟨⟨s, rfl⟩, hall⟩ | ⟨rfl, n, hn, hle⟩
  · rcases hnext s with ⟨hok, hmore⟩ | ⟨herror, n, hn, hle⟩
    · exact .inl ⟨hok, List.forall_mem_append.mpr ⟨hall, hmore⟩⟩
    · exact .inr ⟨herror, n, List.mem_append_right _ hn, hle⟩
  · exact .inr ⟨rfl, n, List.mem_append_left _ hn, hle⟩

theorem map (h : Spells text wholes) (f : String → String) :
    Spells (text >>= fun s => .ok (f s)) wholes := by
  have hbind := h.bind fun s => ok (f s)
  rwa [List.append_nil] at hbind

theorem exists_iff (h : Spells text wholes) :
    (∃ s, text = .ok s) ↔ ∀ n ∈ wholes, n.natAbs < pow10 digitLimit := by
  rcases h with ⟨hok, hall⟩ | ⟨herror, n, hn, hle⟩
  · exact iff_of_true hok hall
  · refine iff_of_false ?_ fun hall => Nat.not_lt.mpr hle (hall n hn)
    rintro ⟨s, hok⟩
    cases herror.symm.trans hok

theorem error_iff (h : Spells text wholes) {d : Defect} :
    text = .error d ↔ d = .unwritable ∧ ¬ ∀ n ∈ wholes, n.natAbs < pow10 digitLimit := by
  rcases h with ⟨⟨s, hok⟩, hall⟩ | ⟨herror, n, hn, hle⟩
  · refine iff_of_false ?_ fun hnot => hnot.2 hall
    rw [hok]
    exact nofun
  · have hlarge : ¬ ∀ n ∈ wholes, n.natAbs < pow10 digitLimit := fun hall =>
      Nat.not_lt.mpr hle (hall n hn)
    rw [herror, Except.error.injEq, and_iff_left hlarge, eq_comm]

end Spells

/-! ### Texts of values -/

namespace Value

mutual

/-- The whole numbers in a value. -/
def wholes : Value → List Int
  | whole n => [n]
  | list items => wholesOfItems items
  | table fields => wholesOfFields fields
  | _ => []

def wholesOfItems : List Value → List Int
  | [] => []
  | item :: items => item.wholes ++ wholesOfItems items

def wholesOfFields : List (String × Value) → List Int
  | [] => []
  | (_, item) :: fields => item.wholes ++ wholesOfFields fields

end

/-- All whole numbers in a value can be written. -/
def IsWritable (v : Value) : Prop := ∀ n ∈ v.wholes, n.natAbs < pow10 digitLimit

mutual

theorem spells_quoted (v : Value) : Spells v.quoted v.wholes := by
  cases v with
  | whole n => rw [quoted, wholes]; exact .whole n
  | list items =>
      rw [quoted, wholes]
      exact (spells_quotedItems items).map fun s => "[" ++ s ++ "]"
  | table fields =>
      rw [quoted, wholes]
      exact (spells_quotedFields fields).map fun s => "\x7b" ++ s ++ "\x7d"
  | _ => simpa only [quoted, wholes, Number.Amount.text] using Spells.ok _

theorem spells_quotedItems (items : List Value) :
    Spells (quotedItems items) (wholesOfItems items) := by
  match items with
  | [] => rw [quotedItems, wholesOfItems]; exact .ok ""
  | [item] =>
      rw [quotedItems, wholesOfItems, wholesOfItems, List.append_nil]
      exact spells_quoted item
  | item :: next :: items =>
      rw [quotedItems, wholesOfItems]
      · exact (spells_quoted item).bind fun s =>
          (spells_quotedItems (next :: items)).map fun t => s ++ ", " ++ t
      · exact nofun

theorem spells_quotedFields (fields : List (String × Value)) :
    Spells (quotedFields fields) (wholesOfFields fields) := by
  match fields with
  | [] => rw [quotedFields, wholesOfFields]; exact .ok ""
  | [(key, item)] =>
      rw [quotedFields, wholesOfFields, wholesOfFields, List.append_nil]
      exact (spells_quoted item).map fun s => Text.quoted key ++ ": " ++ s
  | (key, item) :: next :: fields =>
      rw [quotedFields, wholesOfFields]
      · exact (spells_quoted item).bind fun s =>
          (spells_quotedFields (next :: fields)).map fun t =>
            Text.quoted key ++ ": " ++ s ++ ", " ++ t
      · exact nofun

end

theorem spells_shown (v : Value) : Spells v.shown v.wholes := by
  cases v with
  | text s => simpa only [shown, wholes] using Spells.ok s
  | word w => simpa only [shown, wholes] using Spells.ok w.text
  | date d => simpa only [shown, wholes] using Spells.ok d.text
  | time t => simpa only [shown, wholes] using Spells.ok t.text
  | moment m => simpa only [shown, wholes] using Spells.ok m.text
  | _ => exact spells_quoted _

variable {v : Value} {d : Defect}

theorem exists_quoted_iff : (∃ s, v.quoted = .ok s) ↔ v.IsWritable := v.spells_quoted.exists_iff

theorem quoted_eq_error_iff : v.quoted = .error d ↔ d = .unwritable ∧ ¬ v.IsWritable :=
  v.spells_quoted.error_iff

theorem exists_shown_iff : (∃ s, v.shown = .ok s) ↔ v.IsWritable := v.spells_shown.exists_iff

theorem shown_eq_error_iff : v.shown = .error d ↔ d = .unwritable ∧ ¬ v.IsWritable :=
  v.spells_shown.error_iff

end Value

end Vigil
