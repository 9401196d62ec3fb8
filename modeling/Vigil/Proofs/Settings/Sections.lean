import Mathlib.Data.String.Basic
import Vigil.Proofs.Value.Overlay
import Vigil.Proofs.Value.Spelling
import Vigil.Settings

/-!
# Reading sections

A section should be a table, but a file can put any value in its place.  Here is what a section has
to be so that it can be read as fields or as names, what is read then, and which of the names that
it has are not known.
-/

namespace Vigil.Settings

/-! ### One step after another -/

section Steps

variable {α β ε : Type} {x : Except ε α} {next : α → Except ε β}

theorem map_some_eq_ok_iff {a : Option α} : x.map some = .ok a ↔ ∃ b, x = .ok b ∧ a = some b := by
  cases x <;> simp [Except.map, eq_comm]

theorem map_some_eq_error_iff {e : ε} : x.map some = .error e ↔ x = .error e := by
  cases x <;> simp [Except.map]

/-- A list is gone through without an error, and with results of a kind, if its members have such
results. -/
theorem exists_mapM_eq_ok_iff {p : β → Prop} {l : List α} :
    (∃ out, l.mapM next = .ok out ∧ ∀ b ∈ out, p b) ↔ ∀ a ∈ l, ∃ b, next a = .ok b ∧ p b := by
  induction l with
  | nil => simp [pure, Except.pure]
  | cons a l ih =>
      simp only [List.mapM_cons, bind_eq_ok_iff, pure, Except.pure, Except.ok.injEq,
        List.forall_mem_cons, ← ih]
      constructor
      · rintro ⟨_, ⟨b, hb, out, hout, rfl⟩, hp⟩
        obtain ⟨hpb, hp⟩ := List.forall_mem_cons.mp hp
        exact ⟨⟨b, hb, hpb⟩, out, hout, hp⟩
      · rintro ⟨⟨b, hb, hpb⟩, out, hout, hp⟩
        exact ⟨_, ⟨b, hb, out, hout, rfl⟩, List.forall_mem_cons.mpr ⟨hpb, hp⟩⟩

theorem exists_of_mapM_eq_error {l : List α} {e : ε} (h : l.mapM next = .error e) :
    ∃ a ∈ l, next a = .error e := by
  induction l with
  | nil => cases h
  | cons a l ih =>
      simp only [List.mapM_cons, bind_eq_error_iff] at h
      obtain h | ⟨b, _, h | ⟨_, _, h⟩⟩ := h
      · exact ⟨a, List.mem_cons_self, h⟩
      · obtain ⟨a', ha', h⟩ := ih h
        exact ⟨a', List.mem_cons_of_mem a ha', h⟩
      · cases h

end Steps

/-! ### Sections -/

/-- A section is looked into along a path; a missing one counts as empty. -/
theorem at?_section (fields : Fields) (name key : String) :
    fields.at? [name, key] = (sectionOf fields name).at? [key] := by
  rw [Fields.at?, Value.at?_table_cons, sectionOf]
  cases Fields.get? fields name <;> rfl

theorem at?_section_of_table {fields inner : Fields} {name : String}
    (h : sectionOf fields name = .table inner) (key : String) :
    fields.at? [name, key] = Fields.get? inner key := by
  rw [at?_section, h, Value.at?_table_cons]
  simp

theorem tableOf_eq_ok_iff {v : Value} {fields : Fields} :
    tableOf v = .ok fields ↔ v = .table fields := by
  cases v <;> simp [tableOf]

/-! ### Sections that are used as fields -/

/-- The value stands for fields: it is a table, or each member of it is a name and a value. -/
def StandsForFields (v : Value) : Prop :=
  v.isTable = true ∨
    ∃ items, members? v = some items ∧
      ∀ item ∈ items, ∃ name value, members? item = some [.text name, value]

/-- One pair of a key and a value is added to fields. -/
def addPair (fields : Fields) : Value × Value → Except Fault Fields
  | (.text name, value) => .ok (Fields.put fields name value)
  | _ => .error (.defect .wrongKind)

theorem fieldsOf_eq (v : Value) : fieldsOf v = pairsOf v >>= fun pairs => pairs.foldlM addPair [] := by
  rw [fieldsOf]
  refine congrArg (pairsOf v >>= ·) (funext fun pairs => ?_)
  refine congrArg (fun step => pairs.foldlM step []) (funext fun fields => funext fun pair => ?_)
  obtain ⟨key, value⟩ := pair
  cases key <;> rfl

theorem exists_foldlM_addPair_iff {pairs : List (Value × Value)} {fields : Fields} :
    (∃ out, pairs.foldlM addPair fields = .ok out) ↔ ∀ pair ∈ pairs, ∃ name, pair.1 = .text name := by
  induction pairs generalizing fields with
  | nil => simp [pure, Except.pure]
  | cons pair pairs ih =>
      obtain ⟨key, value⟩ := pair
      rw [List.foldlM_cons, List.forall_mem_cons]
      cases key with
      | text name => simpa [addPair, bind, Except.bind] using ih
      | _ => simp [addPair, bind, Except.bind]

theorem eq_of_foldlM_addPair_eq_error {pairs : List (Value × Value)} {fields : Fields} {f : Fault}
    (h : pairs.foldlM addPair fields = .error f) : f = .defect .wrongKind := by
  induction pairs generalizing fields with
  | nil => cases h
  | cons pair pairs ih =>
      obtain ⟨key, value⟩ := pair
      rw [List.foldlM_cons] at h
      cases key with
      | text name => exact ih h
      | _ => exact (Except.error.inj h).symm

theorem exists_pairOf_iff {position : Nat} {item : Value} :
    (∃ pair, pairOf position item = .ok pair ∧ ∃ name, pair.1 = .text name) ↔
      ∃ name value, members? item = some [.text name, value] := by
  rw [pairOf]
  split
  case h_1 hnone => simp [hnone]
  case h_2 key value hmembers =>
    simp only [hmembers, Option.some_inj, List.cons.injEq, and_true]
    cases key <;> simp [Value.canBeMember]
  case h_3 items hne hmembers =>
    simp only [hmembers, Option.some_inj, reduceCtorEq, false_and, exists_false, false_iff]
    rintro ⟨name, value, rfl⟩
    exact hne _ _ rfl

theorem eq_of_pairOf_eq_error {position : Nat} {item : Value} {f : Fault}
    (h : pairOf position item = .error f) :
    f = .defect .wrongKind ∨ ∃ length, f = .notAPair position length := by
  rw [pairOf] at h
  split at h
  case h_1 => exact .inl (Except.error.inj h).symm
  case h_2 =>
    split_ifs at h
    exact .inl (Except.error.inj h).symm
  case h_3 => exact .inr ⟨_, (Except.error.inj h).symm⟩

theorem pairsOf_of_not_table {v : Value} (h : v.isTable = false) :
    pairsOf v = match members? v with
      | some items => items.zipIdx.mapM fun (item, position) => pairOf position item
      | none => .error (.defect .wrongKind) := by
  cases v with
  | table fields => cases h
  | _ => rfl

theorem forall_mem_zipIdx_iff {α : Type} {p : α → Prop} {l : List α} :
    (∀ a ∈ l.zipIdx, p a.1) ↔ ∀ a ∈ l, p a := by
  have hmap := List.forall_mem_map (l := l.zipIdx) (f := Prod.fst) (P := p)
  rw [← hmap, List.zipIdx_map_fst]

/-- Whatever stands for fields is read as fields. -/
theorem exists_fieldsOf_iff {v : Value} :
    (∃ fields, fieldsOf v = .ok fields) ↔ StandsForFields v := by
  have hread : (∃ fields, fieldsOf v = .ok fields) ↔
      ∃ pairs, pairsOf v = .ok pairs ∧ ∀ pair ∈ pairs, ∃ name, pair.1 = .text name := by
    simp only [fieldsOf_eq, bind_eq_ok_iff, ← @exists_foldlM_addPair_iff _ []]
    exact exists_comm.trans (exists_congr fun pairs => exists_and_left)
  rw [hread, StandsForFields]
  cases htable : v.isTable with
  | true =>
      obtain ⟨fields, rfl⟩ := Value.isTable_iff.mp htable
      refine iff_of_true ⟨_, rfl, fun pair hpair => ?_⟩ (.inl rfl)
      obtain ⟨field, -, rfl⟩ := List.mem_map.mp hpair
      exact ⟨field.1, rfl⟩
  | false =>
      rw [pairsOf_of_not_table htable]
      cases members? v with
      | none => simp
      | some items =>
          have hitems := forall_mem_zipIdx_iff (l := items) (p := fun item =>
            ∃ name value, members? item = some [.text name, value])
          simp only [Bool.false_eq_true, false_or, Option.some_inj, exists_eq_left', ← hitems]
          exact exists_mapM_eq_ok_iff.trans (forall₂_congr fun _ _ => exists_pairOf_iff)

theorem eq_of_fieldsOf_eq_error {v : Value} {f : Fault} (h : fieldsOf v = .error f) :
    f = .defect .wrongKind ∨ ∃ position length, f = .notAPair position length := by
  rw [fieldsOf_eq, bind_eq_error_iff] at h
  obtain h | ⟨pairs, -, h⟩ := h
  · cases htable : v.isTable with
    | true =>
        obtain ⟨fields, rfl⟩ := Value.isTable_iff.mp htable
        cases h
    | false =>
        rw [pairsOf_of_not_table htable] at h
        split at h
        · obtain ⟨_, -, h⟩ := exists_of_mapM_eq_error h
          exact (eq_of_pairOf_eq_error h).imp_right fun h => ⟨_, h⟩
        · exact .inl (Except.error.inj h).symm
  · exact .inl (eq_of_foldlM_addPair_eq_error h)

/-- The fields of a table are those of the table. -/
theorem foldlM_addPair_map {fields more : Fields} (h : (Fields.keys (fields ++ more)).Nodup) :
    (more.map fun (key, value) => (Value.text key, value)).foldlM addPair fields =
      .ok (fields ++ more) := by
  induction more generalizing fields with
  | nil => simp [pure, Except.pure]
  | cons field more ih =>
      obtain ⟨key, value⟩ := field
      have hnew : key ∉ Fields.keys fields := fun hmem => by
        rw [Fields.keys_append, Fields.keys_cons] at h
        exact (List.nodup_append.mp h).2.2 key hmem key List.mem_cons_self rfl
      rw [List.append_cons] at h ⊢
      have hput : Fields.put fields key value = fields ++ [(key, value)] := by
        rw [Fields.put_eq, if_neg hnew]
      rw [List.map_cons, List.foldlM_cons]
      dsimp only [addPair, bind, Except.bind]
      rw [hput, ih h]

theorem fieldsOf_table {fields : Fields} (h : (Fields.keys fields).Nodup) :
    fieldsOf (.table fields) = .ok fields := by
  rw [fieldsOf_eq]
  exact @foldlM_addPair_map [] fields h

/-! ### Sections that are used as names -/

/-- The value stands for names: all its members are texts. -/
def StandsForNames (v : Value) : Prop :=
  ∃ items, members? v = some items ∧ ∀ item ∈ items, ∃ name, item = .text name

/-- The name that a member of a section is. -/
def nameOf : Value → Except Fault String
  | .text name => .ok name
  | _ => .error (.defect .wrongKind)

theorem namesOf_eq (v : Value) :
    namesOf v = (members? v).elim (.error (.defect .wrongKind)) fun items => items.mapM nameOf := by
  rw [namesOf]
  rcases members? v with _ | items
  · rfl
  refine congrArg (fun read => items.mapM read) (funext fun item => ?_)
  cases item <;> rfl

theorem eq_of_namesOf_eq_error {v : Value} {f : Fault} (h : namesOf v = .error f) :
    f = .defect .wrongKind := by
  rw [namesOf_eq] at h
  rcases hmembers : members? v with _ | items <;> rw [hmembers] at h
  · exact (Except.error.inj h).symm
  obtain ⟨item, -, h⟩ := exists_of_mapM_eq_error h
  cases item with
  | text name => cases h
  | _ => exact (Except.error.inj h).symm

/-- Whatever stands for names is read as names. -/
theorem exists_namesOf_iff {v : Value} : (∃ names, namesOf v = .ok names) ↔ StandsForNames v := by
  rw [namesOf_eq, StandsForNames]
  rcases members? v with _ | items
  · simp
  have hread := @exists_mapM_eq_ok_iff Value String Fault nameOf (fun _ => True) items
  simp only [implies_true, and_true, Option.elim_some, Option.some_inj, exists_eq_left'] at hread ⊢
  refine hread.trans (forall₂_congr fun item _ => ?_)
  cases item <;> simp [nameOf]

theorem namesOf_table (fields : Fields) : namesOf (.table fields) = .ok (Fields.keys fields) := by
  simp only [namesOf, members?]
  induction Fields.keys fields with
  | nil => rfl
  | cons key keys ih => simp only [List.map_cons, List.mapM_cons, ih]; rfl

/-! ### Names that are not known -/

/-- A list of the given names that are not known, in order and each once. -/
structure Unknown (known : List String) (given : String → Prop) (unknown : List String) : Prop where
  sorted : unknown.Pairwise (· < ·)
  mem_iff : ∀ name, name ∈ unknown ↔ given name ∧ name ∉ known

theorem nodup_eraseDups (names : List String) : names.eraseDups.Nodup := by
  cases names with
  | nil => exact List.nodup_nil
  | cons name names =>
      rw [List.eraseDups_cons]
      refine List.nodup_cons.mpr ⟨fun hmem => ?_, nodup_eraseDups _⟩
      simp at hmem
termination_by names.length
decreasing_by exact Nat.lt_succ_of_le (List.length_filter_le _ _)

theorem unknown_unknownAmong (known names : List String) :
    Unknown known (· ∈ names) (unknownAmong known names) := by
  have hperm : (unknownAmong known names).Perm _ := List.mergeSort_perm _ _
  constructor
  · have hle : (unknownAmong known names).Pairwise fun a b => decide (a ≤ b) = true :=
      List.pairwise_mergeSort
        (fun a b c hab hbc => by simp only [decide_eq_true_eq] at *; exact hab.trans hbc)
        (fun a b => by simpa using le_total a b) _
    have hne : (unknownAmong known names).Pairwise (· ≠ ·) :=
      hperm.nodup_iff.mpr (nodup_eraseDups _)
    exact hle.imp₂ (fun a b hab hne => lt_of_le_of_ne (of_decide_eq_true hab) hne) hne
  · intro name
    rw [hperm.mem_iff, List.mem_eraseDups, List.mem_filter]
    simp

/-- There is only one such list. -/
theorem Unknown.unique {known : List String} {given : String → Prop} {unknown more : List String}
    (h : Unknown known given unknown) (hmore : Unknown known given more) : unknown = more := by
  have hperm : unknown.Perm more :=
    (List.perm_ext_iff_of_nodup (h.sorted.imp ne_of_lt) (hmore.sorted.imp ne_of_lt)).mpr fun name =>
      (h.mem_iff name).trans (hmore.mem_iff name).symm
  exact hperm.eq_of_pairwise (fun a b _ _ hab hba => absurd hba hab.asymm) h.sorted hmore.sorted

theorem unknownAmong_eq_nil_iff {known names : List String} :
    unknownAmong known names = [] ↔ ∀ name ∈ names, name ∈ known := by
  have hmem := (unknown_unknownAmong known names).mem_iff
  rw [List.eq_nil_iff_forall_not_mem]
  exact forall_congr' fun name => by rw [hmem, not_and, not_not]

theorem requireKnown_eq_ok_iff {section_ : String} {known names : List String} :
    requireKnown section_ known names = .ok () ↔ ∀ name ∈ names, name ∈ known := by
  rw [← unknownAmong_eq_nil_iff, requireKnown]
  split
  · exact iff_of_true rfl ‹_›
  · exact iff_of_false (fun h => by cases h) ‹_›

/-- All names that are not known are told at once. -/
theorem requireKnown_eq_error_iff {section_ : String} {known names : List String} {f : Fault} :
    requireKnown section_ known names = .error f ↔
      ∃ unknown ≠ [], Unknown known (· ∈ names) unknown ∧ f = .unknownKeys section_ unknown := by
  have hunknown := unknown_unknownAmong known names
  constructor
  · intro h
    rw [requireKnown] at h
    split at h
    · cases h
    · exact ⟨_, ‹_›, hunknown, (Except.error.inj h).symm⟩
  · rintro ⟨unknown, hne, hlist, rfl⟩
    obtain rfl := hunknown.unique hlist
    rw [requireKnown]
    split
    · exact absurd ‹_› hne
    · rfl

end Vigil.Settings
