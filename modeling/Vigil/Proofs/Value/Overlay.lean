import Vigil.Proofs.Value.Fields

/-!
# What a merged table holds

A table is laid over another one field by field and all the way down.  What that comes to is said
best without going down: by what stands at each path.  Where the upper table has something at a path
it wins, and where it has nothing the lower table is seen, unless a value of the upper table that is
no table hides everything below it.
-/

namespace Vigil

/-! ### Paths -/

/-- What stands at a path of keys. -/
def Value.at? : Value → List String → Option Value
  | v, [] => some v
  | .table fields, key :: path => (Fields.get? fields key).bind fun v => v.at? path
  | _, _ :: _ => none

/-- What stands at a path of keys from a table. -/
def Fields.at? (fields : Fields) (path : List String) : Option Value := (Value.table fields).at? path

/-- On the way to a path, and before its end, stands a value that is no table. -/
def Value.Hides (v : Value) (path : List String) : Prop :=
  ∃ q, q <+: path ∧ q ≠ path ∧ ∃ w, v.at? q = some w ∧ w.isTable = false

/-- On the way from a table to a path stands a value that is no table. -/
def Fields.Hides (fields : Fields) (path : List String) : Prop :=
  ∃ q, q ≠ [] ∧ q <+: path ∧ q ≠ path ∧ ∃ w, fields.at? q = some w ∧ w.isTable = false

namespace Value

@[simp]
theorem at?_nil (v : Value) : v.at? [] = some v := by
  cases v <;> rfl

theorem at?_table_cons (fields : Fields) (key : String) (path : List String) :
    (table fields).at? (key :: path) = (Fields.get? fields key).bind fun v => v.at? path := rfl

theorem at?_cons_of_not_table {v : Value} (h : v.isTable = false) (key : String)
    (path : List String) : v.at? (key :: path) = none := by
  cases v with
  | table fields => cases h
  | _ => rfl

theorem at?_cons (v : Value) (key : String) (path : List String) :
    v.at? (key :: path) = (v.at? [key]).bind fun w => w.at? path := by
  cases v with
  | table fields => simp [at?_table_cons]
  | _ => rfl

/-- The tables on the way to a place have no repeated keys either. -/
theorem Tidy.at? {v w : Value} (h : v.Tidy) {path : List String} (hat : v.at? path = some w) :
    w.Tidy := by
  induction path generalizing v with
  | nil =>
      rw [at?_nil, Option.some_inj] at hat
      exact hat ▸ h
  | cons key path ih =>
      cases v with
      | table fields =>
          obtain ⟨v, hget, hat⟩ := Option.bind_eq_some_iff.mp hat
          exact ih (Fields.Tidy.get? h hget) hat
      | _ => cases hat

theorem not_hides_nil (v : Value) : ¬ v.Hides [] := fun ⟨_, hprefix, hne, _⟩ =>
  hne (List.prefix_nil.mp hprefix)

theorem hides_of_not_table {v : Value} (h : v.isTable = false) (key : String)
    (path : List String) : v.Hides (key :: path) :=
  ⟨[], List.nil_prefix, List.cons_ne_nil key path |>.symm, v, at?_nil v, h⟩

theorem hides_table_cons {fields : Fields} {key : String} {path : List String} :
    (table fields).Hides (key :: path) ↔
      ∃ v, Fields.get? fields key = some v ∧ v.Hides path := by
  constructor
  · rintro ⟨q, hprefix, hne, w, hat, hw⟩
    cases q with
    | nil =>
        rw [at?_nil, Option.some_inj] at hat
        rw [← hat] at hw
        cases hw
    | cons k q =>
        obtain ⟨rfl, hbelow⟩ := List.cons_prefix_cons.mp hprefix
        obtain ⟨v, hget, hat⟩ := Option.bind_eq_some_iff.mp hat
        exact ⟨v, hget, q, hbelow, fun heq => hne (heq ▸ rfl), w, hat, hw⟩
  · rintro ⟨v, hget, q, hprefix, hne, w, hat, hw⟩
    refine ⟨key :: q, List.cons_prefix_cons.mpr ⟨rfl, hprefix⟩, fun heq => ?_, w, ?_, hw⟩
    · exact hne (List.cons.inj heq).2
    · rw [at?_table_cons, hget, Option.bind_some, hat]

end Value

/-- From a table, only a way that was begun can be barred. -/
theorem Fields.hides_iff {fields : Fields} {path : List String} :
    fields.Hides path ↔ (Value.table fields).Hides path := by
  constructor
  · rintro ⟨q, _, hprefix, hne, hat⟩
    exact ⟨q, hprefix, hne, hat⟩
  · rintro ⟨q, hprefix, hne, w, hat, hw⟩
    refine ⟨q, ?_, hprefix, hne, w, hat, hw⟩
    rintro rfl
    rw [Value.at?_nil, Option.some_inj] at hat
    rw [← hat] at hw
    cases hw

/-! ### One step down -/

/-- A value laid over what stands below it, if anything does. -/
def Value.overAny (below : Option Value) (v : Value) : Value :=
  match below with
  | some old => old.over v
  | none => v

namespace Value

theorem overAny_of_not_table (below : Option Value) {v : Value} (h : v.isTable = false) :
    v.overAny below = v := by
  cases v with
  | table fields => cases h
  | _ => cases below <;> rfl

theorem overAny_table_table (fields more : Fields) :
    (table more).overAny (some (table fields)) = table (Fields.merge fields more) := by
  rw [overAny, Value.over]

theorem overAny_table_of_not_table {below : Value} (h : below.isTable = false) (fields : Fields) :
    (table fields).overAny (some below) = table fields := by
  cases below with
  | table fields => cases h
  | _ => simp only [overAny, Value.over]

theorem isTable_overAny (below : Option Value) (v : Value) :
    (v.overAny below).isTable = v.isTable := by
  cases v with
  | table fields =>
      rcases below with _ | below
      · rfl
      cases hbelow : below.isTable with
      | false => rw [overAny_table_of_not_table hbelow]
      | true =>
          obtain ⟨old, rfl⟩ := isTable_iff.mp hbelow
          rw [overAny_table_table]
          rfl
  | _ => rw [overAny_of_not_table below rfl]

end Value

namespace Fields

theorem merge_nil (base : Fields) : merge base [] = base := by
  rw [merge]

theorem merge_cons (base : Fields) (key : String) (v : Value) (fields : Fields) :
    merge base ((key, v) :: fields) =
      merge (put base key (v.overAny (get? base key))) fields := by
  rw [merge, mergeField]
  rfl

/-- The keys of the lower table stay in their places, and the new keys of the upper one follow. -/
theorem keys_merge (base : Fields) {fields : Fields} (h : (keys fields).Nodup) :
    keys (merge base fields) =
      keys base ++ (keys fields).filter fun key => decide (key ∉ keys base) := by
  induction fields generalizing base with
  | nil => rw [merge_nil, keys_nil, List.filter_nil, List.append_nil]
  | cons field fields ih =>
      obtain ⟨key, v⟩ := field
      obtain ⟨hnew, hnodup⟩ := List.nodup_cons.mp h
      rw [merge_cons, ih _ hnodup, keys_put, keys_cons]
      split_ifs with hmem
      · rw [List.filter_cons_of_neg (by simpa using hmem)]
      · have hrest : (keys fields).filter (fun k => decide (k ∉ keys base ++ [key])) =
            (keys fields).filter fun k => decide (k ∉ keys base) := by
          refine List.filter_congr fun k hk => ?_
          have hne : k ≠ key := fun heq => hnew (heq ▸ hk)
          simp [hne]
        rw [List.filter_cons_of_pos (by simpa using hmem), hrest, List.append_assoc,
          List.singleton_append]

/-- A key of the upper table looks up what that table has, laid over what was below; any other key
looks up what was below. -/
theorem get?_merge (base : Fields) {fields : Fields} (h : (keys fields).Nodup) (key : String) :
    get? (merge base fields) key =
      match get? fields key with
      | some v => some (v.overAny (get? base key))
      | none => get? base key := by
  induction fields generalizing base with
  | nil => rw [merge_nil, get?_nil]
  | cons field fields ih =>
      obtain ⟨k, v⟩ := field
      obtain ⟨hnew, hnodup⟩ := List.nodup_cons.mp h
      rw [merge_cons, ih _ hnodup, get?_put, get?_cons]
      by_cases hk : k = key
      · have hnone : get? fields key = none := get?_eq_none_iff.mpr (hk ▸ hnew)
        rw [hnone, if_pos hk, if_pos hk.symm, hk]
      · rw [if_neg hk, if_neg (Ne.symm hk)]

theorem nodup_keys_merge {base fields : Fields} (hbase : (keys base).Nodup)
    (hfields : (keys fields).Nodup) : (keys (merge base fields)).Nodup := by
  rw [keys_merge base hfields]
  refine List.nodup_append.mpr ⟨hbase, hfields.filter _, fun a ha b hb heq => ?_⟩
  exact of_decide_eq_true (List.mem_filter.mp hb).2 (heq ▸ ha)

theorem mem_keys_merge {base fields : Fields} (h : (keys fields).Nodup) {key : String} :
    key ∈ keys (merge base fields) ↔ key ∈ keys base ∨ key ∈ keys fields := by
  rw [keys_merge base h, List.mem_append, List.mem_filter, decide_eq_true_eq]
  tauto

/-- A table laid over the empty one is itself. -/
theorem nil_merge {fields : Fields} (h : (keys fields).Nodup) : merge [] fields = fields := by
  refine ext_of_nodup (nodup_keys_merge List.nodup_nil h) ?_ fun key _ => ?_
  · simp [keys_merge [] h]
  · rw [get?_merge [] h]
    cases get? fields key <;> rfl

end Fields

/-! ### All the way down -/

namespace Value

/-- One step down into a table that was laid over something. -/
theorem at?_overAny_cons (below : Option Value) {fields : Fields} (h : fields.Tidy) (key : String)
    (path : List String) :
    ((table fields).overAny below).at? (key :: path) =
      match Fields.get? fields key with
      | some v => (v.overAny (below.bind fun b => b.at? [key])).at? path
      | none => below.bind fun b => b.at? (key :: path) := by
  have halone : (table fields).at? (key :: path) =
      match Fields.get? fields key with
      | some v => v.at? path
      | none => none := by
    rw [at?_table_cons]
    cases Fields.get? fields key <;> rfl
  cases below with
  | none => exact halone
  | some below =>
      cases hbelow : below.isTable with
      | false =>
          rw [overAny_table_of_not_table hbelow, halone]
          simp [at?_cons_of_not_table hbelow, overAny]
      | true =>
          obtain ⟨old, rfl⟩ := isTable_iff.mp hbelow
          rw [overAny_table_table, at?_table_cons, Fields.get?_merge old h.nodup]
          cases Fields.get? fields key <;> simp [at?_table_cons]

/-- What the upper value has at a path is laid over what the lower one has there. -/
theorem at?_overAny_of_some (below : Option Value) {v w : Value} (h : v.Tidy) {path : List String}
    (hat : v.at? path = some w) :
    (v.overAny below).at? path = some (w.overAny (below.bind fun b => b.at? path)) := by
  induction path generalizing below v with
  | nil =>
      rw [at?_nil, Option.some_inj] at hat
      rw [at?_nil, hat]
      cases below <;> simp
  | cons key path ih =>
      cases v with
      | table fields =>
          obtain ⟨v, hget, hat⟩ := Option.bind_eq_some_iff.mp hat
          rw [at?_overAny_cons below h, hget]
          simp only [ih _ (Fields.Tidy.get? h hget) hat, Option.bind_assoc, at?_cons _ key path]
      | _ => cases hat

/-- Below a value that is no table there is nothing, whatever the lower value has. -/
theorem at?_overAny_of_hides (below : Option Value) {v : Value} (h : v.Tidy) {path : List String}
    (hhides : v.Hides path) : (v.overAny below).at? path = none := by
  induction path generalizing below v with
  | nil => exact absurd hhides v.not_hides_nil
  | cons key path ih =>
      cases hv : v.isTable with
      | false => rw [overAny_of_not_table below hv, at?_cons_of_not_table hv]
      | true =>
          obtain ⟨fields, rfl⟩ := isTable_iff.mp hv
          obtain ⟨v, hget, hhides⟩ := hides_table_cons.mp hhides
          rw [at?_overAny_cons below h, hget]
          exact ih _ (Fields.Tidy.get? h hget) hhides

/-- Where the upper value has nothing and hides nothing, the lower one is seen. -/
theorem at?_overAny_of_none (below : Option Value) {v : Value} (h : v.Tidy) {path : List String}
    (hat : v.at? path = none) (hseen : ¬ v.Hides path) :
    (v.overAny below).at? path = below.bind fun b => b.at? path := by
  induction path generalizing below v with
  | nil =>
      rw [at?_nil] at hat
      cases hat
  | cons key path ih =>
      cases hv : v.isTable with
      | false => exact absurd (hides_of_not_table hv key path) hseen
      | true =>
          obtain ⟨fields, rfl⟩ := isTable_iff.mp hv
          rw [at?_overAny_cons below h]
          cases hget : Fields.get? fields key with
          | none => rfl
          | some v =>
              have hat : v.at? path = none := by
                rw [at?_table_cons, hget] at hat
                exact hat
              have hseen : ¬ v.Hides path := fun hhides =>
                hseen (hides_table_cons.mpr ⟨v, hget, hhides⟩)
              simp only [ih _ (Fields.Tidy.get? h hget) hat hseen, Option.bind_assoc,
                at?_cons _ key path]

/-! ### Merging again -/

/-- A value laid over itself is itself. -/
theorem over_self {v : Value} (h : v.Tidy) : v.over v = v := by
  induction h with
  | plain hplain => exact overAny_of_not_table (some _) hplain
  | @table fields hnodup hfields ih =>
      have hkeys : Fields.keys (Fields.merge fields fields) = Fields.keys fields := by
        rw [Fields.keys_merge fields hnodup, List.filter_eq_nil_iff.mpr, List.append_nil]
        simp
      have hmerge : Fields.merge fields fields = fields := by
        refine Fields.ext_of_nodup (hkeys ▸ hnodup) hkeys fun key _ => ?_
        rw [Fields.get?_merge fields hnodup]
        cases hget : Fields.get? fields key with
        | none => rfl
        | some v => exact congrArg some (ih (key, v) (Fields.mem_of_get? hget))
      rw [Value.over, hmerge]

/-- A value that was laid over another one may be laid over it again. -/
theorem over_over {v : Value} (h : v.Tidy) {below : Value} (hbelow : below.Tidy) :
    (below.over v).over v = below.over v := by
  induction h generalizing below with
  | plain hplain =>
      have heq (b : Value) : b.over _ = _ := overAny_of_not_table (some b) hplain
      rw [heq, heq]
  | @table fields hnodup hfields ih =>
      have htidy : Fields.Tidy fields := .table hnodup hfields
      cases hbase : below.isTable with
      | false =>
          have heq : below.over (.table fields) = .table fields :=
            overAny_table_of_not_table hbase fields
          rw [heq, over_self htidy]
      | true =>
          obtain ⟨base, rfl⟩ := isTable_iff.mp hbase
          have hbase : Fields.Tidy base := hbelow
          have hkeys : Fields.keys (Fields.merge (Fields.merge base fields) fields) =
              Fields.keys (Fields.merge base fields) := by
            rw [Fields.keys_merge _ hnodup, List.filter_eq_nil_iff.mpr, List.append_nil]
            intro key hkey
            simpa using (Fields.mem_keys_merge hnodup).mpr (.inr hkey)
          have hmerge : Fields.merge (Fields.merge base fields) fields =
              Fields.merge base fields := by
            refine Fields.ext_of_nodup ?_ hkeys fun key _ => ?_
            · rw [hkeys]
              exact Fields.nodup_keys_merge hbase.nodup hnodup
            · rw [Fields.get?_merge _ hnodup, Fields.get?_merge base hnodup]
              cases hget : Fields.get? fields key with
              | none => rfl
              | some v =>
                  have hv : v.Tidy := htidy.get? hget
                  cases hold : Fields.get? base key with
                  | none => exact congrArg some (over_self hv)
                  | some old =>
                      exact congrArg some
                        (ih (key, v) (Fields.mem_of_get? hget) (hbase.get? hold))
          rw [Value.over, Value.over, hmerge]

end Value

/-! ### The whole of it -/

/-- What one table laid over another one holds, path by path. -/
structure Fields.LaidOver (base fields merged : Fields) : Prop where
  /-- What the upper table has wins, unless it is a table. -/
  upper : ∀ path ≠ [], ∀ v, v.isTable = false → fields.at? path = some v → merged.at? path = some v
  /-- Where the upper table has nothing, what the lower one has is seen. -/
  lower : ∀ path ≠ [], ∀ v, v.isTable = false → base.at? path = some v → fields.at? path = none →
    ¬ fields.Hides path → merged.at? path = some v
  /-- A value of the upper table that is no table hides what the lower table has below it. -/
  hidden : ∀ path ≠ [], ∀ v, v.isTable = false → base.at? path = some v → fields.at? path = none →
    fields.Hides path → merged.at? path = none
  tables : ∀ path ≠ [],
    (∃ inner, merged.at? path = some (.table inner)) ↔
      (∃ inner, fields.at? path = some (.table inner)) ∨
        (∃ inner, base.at? path = some (.table inner)) ∧ fields.at? path = none ∧
          ¬ fields.Hides path
  /-- Nothing stands at a path to which neither table leads. -/
  nothing : ∀ path ≠ [], fields.at? path = none → (base.at? path = none ∨ fields.Hides path) →
    merged.at? path = none
  /-- The keys of the lower table come first, each group in its own order. -/
  keys : ∀ path lower upper, base.at? path = some (.table lower) →
    fields.at? path = some (.table upper) → ∃ inner, merged.at? path = some (.table inner) ∧
      Fields.keys inner =
        Fields.keys lower ++ (Fields.keys upper).filter fun key => decide (key ∉ Fields.keys lower)

namespace Fields

variable {base fields : Fields}

theorem at?_merge_of_some (h : fields.Tidy) {path : List String} {v : Value}
    (hat : fields.at? path = some v) :
    (merge base fields).at? path = some (v.overAny (base.at? path)) := by
  have hmerge := Value.at?_overAny_of_some (some (.table base)) h hat
  rwa [Value.overAny_table_table] at hmerge

theorem at?_merge_of_none (h : fields.Tidy) {path : List String} (hat : fields.at? path = none)
    (hseen : ¬ fields.Hides path) : (merge base fields).at? path = base.at? path := by
  have hmerge := Value.at?_overAny_of_none (some (.table base)) h hat (mt hides_iff.mpr hseen)
  rwa [Value.overAny_table_table] at hmerge

theorem at?_merge_of_hides (h : fields.Tidy) {path : List String} (hhides : fields.Hides path) :
    (merge base fields).at? path = none := by
  have hmerge := Value.at?_overAny_of_hides (some (.table base)) h (hides_iff.mp hhides)
  rwa [Value.overAny_table_table] at hmerge

theorem exists_some_eq_table {v : Value} :
    (∃ inner, some v = some (.table inner)) ↔ v.isTable = true := by
  simp only [Option.some_inj, Value.isTable_iff]

theorem laidOver_merge (h : fields.Tidy) : LaidOver base fields (merge base fields) where
  upper path _ v hv hat := by
    rw [at?_merge_of_some h hat, Value.overAny_of_not_table _ hv]
  lower path _ v hv hbase hat hseen := by
    rw [at?_merge_of_none h hat hseen, hbase]
  hidden path _ v _ _ _ hhides := at?_merge_of_hides h hhides
  tables path _ := by
    cases hat : fields.at? path with
    | some v =>
        have htable : (v.overAny (base.at? path)).isTable = v.isTable := Value.isTable_overAny _ v
        rw [at?_merge_of_some h hat, exists_some_eq_table, htable, ← exists_some_eq_table]
        simp
    | none =>
        by_cases hhides : fields.Hides path
        · simp [at?_merge_of_hides h hhides, hhides]
        · simp [at?_merge_of_none h hat hhides, hhides]
  nothing path _ hat := by
    rintro (hbase | hhides)
    · by_cases hhides : fields.Hides path
      · exact at?_merge_of_hides h hhides
      · rw [at?_merge_of_none h hat hhides, hbase]
    · exact at?_merge_of_hides h hhides
  keys path lower upper hbase hat := by
    have htidy : Fields.Tidy upper := Value.Tidy.at? h hat
    refine ⟨merge lower upper, ?_, keys_merge lower htidy.nodup⟩
    rw [at?_merge_of_some h hat, hbase, Value.overAny_table_table]

/-- A table laid over another one holds at each path what the upper one has there, or else what the
lower one has and the upper one does not hide; doing it again changes nothing, nor does a table laid
over itself, nor the empty table. -/
theorem merge_by_path (hbase : base.Tidy) (hfields : fields.Tidy) :
    LaidOver base fields (merge base fields) ∧
      merge (merge base fields) fields = merge base fields ∧
      merge base base = base ∧ merge base [] = base ∧ merge [] base = base := by
  refine ⟨laidOver_merge hfields, ?_, ?_, merge_nil base, nil_merge hbase.nodup⟩
  · have hover := Value.over_over hfields hbase
    simpa [Value.over] using hover
  · have hover := Value.over_self hbase
    simpa [Value.over] using hover

/-- Settings that all projects share, and a project that changes some, adds one and replaces a whole
section by a number. -/
theorem merge_by_path_of_sections :
    ∃ base fields : Fields, base.Tidy ∧ fields.Tidy ∧ LaidOver base fields (merge base fields) ∧
      merge (merge base fields) fields = merge base fields ∧
      merge base fields =
        [("eks", .table [("region", .text "south"), ("profile", .text "ops")]), ("wait", .whole 5),
          ("log", .table [])] := by
  have hbase : Fields.Tidy [("eks", .table [("region", .text "north")]),
      ("wait", .table [("timeout", .whole 9)])] := by
    refine .table (by decide) (List.forall_mem_cons.mpr ⟨.table (by decide) ?_,
      List.forall_mem_cons.mpr ⟨.table (by decide) ?_, List.forall_mem_nil _⟩⟩)
    · exact List.forall_mem_singleton.mpr (.plain rfl)
    · exact List.forall_mem_singleton.mpr (.plain rfl)
  have hfields : Fields.Tidy [("wait", .whole 5),
      ("eks", .table [("profile", .text "ops"), ("region", .text "south")]), ("log", .table [])] := by
    refine .table (by decide) (List.forall_mem_cons.mpr ⟨.plain rfl, List.forall_mem_cons.mpr
      ⟨.table (by decide) ?_, List.forall_mem_singleton.mpr (.table (by decide) ?_)⟩⟩)
    · exact List.forall_mem_cons.mpr ⟨.plain rfl, List.forall_mem_singleton.mpr (.plain rfl)⟩
    · exact List.forall_mem_nil _
  obtain ⟨hlaid, htwice, -, -, -⟩ := merge_by_path hbase hfields
  exact ⟨_, _, hbase, hfields, hlaid, htwice, by
    simp [merge, mergeField, Value.over, put, get?]⟩

end Fields

end Vigil
