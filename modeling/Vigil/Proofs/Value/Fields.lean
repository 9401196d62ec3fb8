import Mathlib.Data.List.Nodup
import Vigil.Value.Merge

/-!
# Tables as maps

A table is a list of fields, but it is meant as a map whose keys have an order.  What a key looks up
and which keys there are determine a table in which no key repeats, so everything that is done to
tables is described by these two.
-/

namespace Vigil

namespace Fields

/-! ### Looking up -/

@[simp]
theorem get?_nil (key : String) : get? [] key = none := rfl

theorem get?_cons (k : String) (v : Value) (fields : Fields) (key : String) :
    get? ((k, v) :: fields) key = if k = key then some v else get? fields key := by
  by_cases h : k = key <;> simp [get?, h]

@[simp]
theorem keys_nil : keys [] = [] := rfl

@[simp]
theorem keys_cons (k : String) (v : Value) (fields : Fields) :
    keys ((k, v) :: fields) = k :: keys fields := rfl

@[simp]
theorem keys_append (fields more : Fields) : keys (fields ++ more) = keys fields ++ keys more :=
  List.map_append

theorem get?_append (fields more : Fields) (key : String) :
    get? (fields ++ more) key = (get? fields key).or (get? more key) := by
  simp [get?, List.find?_append, Option.map_or]

theorem get?_eq_none_iff {fields : Fields} {key : String} :
    get? fields key = none ↔ key ∉ keys fields := by
  rw [get?, Option.map_eq_none_iff, List.find?_eq_none, keys, List.mem_map]
  exact ⟨fun h ⟨field, hmem, hkey⟩ => h field hmem (beq_iff_eq.mpr hkey),
    fun h field hmem hkey => h ⟨field, hmem, beq_iff_eq.mp hkey⟩⟩

theorem mem_keys_iff {fields : Fields} {key : String} :
    key ∈ keys fields ↔ ∃ v, get? fields key = some v := by
  rw [← Option.ne_none_iff_exists', ne_eq, get?_eq_none_iff, not_not]

theorem mem_of_get? {fields : Fields} {key : String} {v : Value}
    (h : get? fields key = some v) : (key, v) ∈ fields := by
  obtain ⟨⟨k, w⟩, hfound, rfl⟩ := Option.map_eq_some_iff.mp h
  have hkey : k = key := by simpa using List.find?_some hfound
  exact hkey ▸ List.mem_of_find?_eq_some hfound

/-- Two tables without repeated keys are equal if they have the same keys in the same order and
every key looks up the same. -/
theorem ext_of_nodup {fields more : Fields} (hnodup : (keys fields).Nodup)
    (hkeys : keys fields = keys more)
    (hget : ∀ key ∈ keys fields, get? fields key = get? more key) : fields = more := by
  induction fields generalizing more with
  | nil =>
      cases more with
      | nil => rfl
      | cons field more => cases hkeys
  | cons field fields ih =>
      obtain ⟨k, v⟩ := field
      cases more with
      | nil => cases hkeys
      | cons field' more =>
          obtain ⟨k', v'⟩ := field'
          obtain ⟨rfl, hrest⟩ := List.cons.inj hkeys
          obtain ⟨hnew, hnodup⟩ := List.nodup_cons.mp hnodup
          have hv : v = v' := by simpa [get?_cons] using hget k (by simp)
          have hfields : fields = more := by
            refine ih hnodup hrest fun key hkey => ?_
            have hne : k ≠ key := fun heq => hnew (heq ▸ hkey)
            simpa [get?_cons, hne] using hget key (List.mem_cons_of_mem k hkey)
          rw [hv, hfields]

/-! ### Putting -/

/-- A value is put in the place of the field with its key, or at the end. -/
theorem put_eq (fields : Fields) (key : String) (v : Value) :
    put fields key v =
      if key ∈ keys fields then fields.map fun field => if field.1 = key then (key, v) else field
      else fields ++ [(key, v)] := by
  have hany : (fields.any fun field => field.1 == key) = true ↔ key ∈ keys fields := by
    simp [keys]
  simp only [put, hany, beq_iff_eq]

/-- A key that is put keeps its place, and a new one is the last. -/
theorem keys_put (fields : Fields) (key : String) (v : Value) :
    keys (put fields key v) = if key ∈ keys fields then keys fields else keys fields ++ [key] := by
  rw [put_eq]
  split_ifs with hmem
  · simp only [keys, List.map_map]
    refine List.map_congr_left fun field _ => ?_
    by_cases h : field.1 = key <;> simp [h]
  · simp

/-- What a key looks up after the fields of one key were replaced. -/
theorem get?_replace (fields : Fields) (key : String) (v : Value) (k : String) :
    get? (fields.map fun field => if field.1 = key then (key, v) else field) k =
      if k = key ∧ key ∈ keys fields then some v else get? fields k := by
  induction fields with
  | nil => simp
  | cons field fields ih =>
      obtain ⟨k', w⟩ := field
      rw [List.map_cons]
      by_cases hk' : k' = key
      · by_cases hk : k = key
        · simp [get?_cons, hk', hk]
        · simp [get?_cons, hk', hk, Ne.symm hk, ih]
      · by_cases hk : k' = k
        · have hne : k ≠ key := hk ▸ hk'
          simp [get?_cons, hk, hne]
        · simp [get?_cons, hk', hk, ih, Ne.symm hk']

/-- Putting a value at a key changes what this key looks up, and nothing else. -/
theorem get?_put (fields : Fields) (key : String) (v : Value) (k : String) :
    get? (put fields key v) k = if k = key then some v else get? fields k := by
  rw [put_eq]
  split_ifs with hmem hk hk
  · rw [get?_replace, if_pos ⟨hk, hmem⟩]
  · rw [get?_replace, if_neg fun h => hk h.1]
  · have hnone : get? fields k = none := get?_eq_none_iff.mpr (hk ▸ hmem)
    rw [get?_append, hnone, Option.none_or, get?_cons, if_pos hk.symm]
  · rw [get?_append, get?_cons, if_neg (Ne.symm hk), get?_nil, Option.or_none]

/-- A value is put at a missing key only. -/
theorem get?_putIfMissing (fields : Fields) (key : String) (v : Value) (k : String) :
    get? (putIfMissing fields key v) k =
      if k = key then some ((get? fields k).getD v) else get? fields k := by
  have heq : putIfMissing fields key v = if key ∈ keys fields then fields else put fields key v := by
    rw [put_eq, putIfMissing]
    simp only [keys, List.mem_map, List.any_eq_true, beq_iff_eq]
    split_ifs <;> rfl
  rw [heq]
  split_ifs with hmem hk hk
  · obtain ⟨w, hw⟩ := mem_keys_iff.mp (hk ▸ hmem)
    rw [hw, Option.getD_some]
  · rfl
  · rw [get?_put, if_pos hk, get?_eq_none_iff.mpr (hk ▸ hmem), Option.getD_none]
  · rw [get?_put, if_neg hk]

end Fields

/-! ### Tables in which no key repeats -/

/-- The value is a table. -/
def Value.isTable : Value → Bool
  | .table _ => true
  | _ => false

theorem Value.isTable_iff {v : Value} : v.isTable = true ↔ ∃ fields, v = .table fields := by
  cases v <;> simp [Value.isTable]

/-- No key repeats in a table, nor in a table that is reached from it through tables. -/
inductive Value.Tidy : Value → Prop
  | table {fields : Fields} (hnodup : (Fields.keys fields).Nodup)
      (hfields : ∀ field ∈ fields, Value.Tidy field.2) : Value.Tidy (.table fields)
  | plain {v : Value} (h : v.isTable = false) : Value.Tidy v

/-- The table and those in it have no repeated keys. -/
def Fields.Tidy (fields : Fields) : Prop := (Value.table fields).Tidy

namespace Fields.Tidy

variable {fields : Fields}

theorem nodup (h : fields.Tidy) : (keys fields).Nodup := by
  cases h with
  | table hnodup _ => exact hnodup
  | plain hplain => cases hplain

theorem get? (h : fields.Tidy) {key : String} {v : Value} (hget : Fields.get? fields key = some v) :
    v.Tidy := by
  cases h with
  | table _ hfields => exact hfields (key, v) (mem_of_get? hget)
  | plain hplain => cases hplain

end Fields.Tidy

end Vigil
