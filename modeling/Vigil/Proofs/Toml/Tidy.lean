import Vigil.Proofs.Value.Fields
import Vigil.Proofs.Value.Spelling
import Vigil.Toml.Document

/-!
# No key repeats in a file

A file that gives a key twice is not read at all.  So whatever is read is a table without repeated
keys, and so are the tables in it: a table under construction is changed at one key at a time, and
what stands at that key is changed and not added a second time.
-/

namespace Vigil.Toml

/-! ### Tables under construction -/

/-- No key repeats in the tables that a part of a file has become.  Of the tables in a list only the
last one can still be changed. -/
inductive Node.Tidy : Node → Prop
  | leaf {v : Value} (h : v.Tidy) : Node.Tidy (.leaf v)
  | table {origin : Origin} {entries : List (String × Node)} (hnodup : (entries.map Prod.fst).Nodup)
      (hentries : ∀ entry ∈ entries, Node.Tidy entry.2) : Node.Tidy (.table origin entries)
  | tables {complete : List (List (String × Node))} {current : List (String × Node)}
      (hnodup : (current.map Prod.fst).Nodup) (hcurrent : ∀ entry ∈ current, Node.Tidy entry.2) :
      Node.Tidy (.tables complete current)

/-- No key repeats among the entries, nor in a table among them. -/
structure Entries.Tidy (entries : Entries) : Prop where
  nodup : (entries.map Prod.fst).Nodup
  entries : ∀ entry ∈ entries, entry.2.Tidy

namespace Node

theorem fieldsOf_eq_map (entries : List (String × Node)) :
    fieldsOf entries = entries.map fun entry => (entry.1, entry.2.toValue) := by
  induction entries with
  | nil => rw [fieldsOf, List.map_nil]
  | cons entry entries ih => rw [fieldsOf, ih, List.map_cons]

theorem Tidy.toValue {node : Node} (h : node.Tidy) : node.toValue.Tidy := by
  induction h with
  | leaf h => rwa [Node.toValue]
  | tables _ _ _ => rw [Node.toValue]; exact .plain rfl
  | table hnodup _ ih =>
      rw [Node.toValue, fieldsOf_eq_map]
      refine .table (by simpa [Fields.keys, Function.comp_def] using hnodup) fun field hfield => ?_
      obtain ⟨entry, hentry, rfl⟩ := List.mem_map.mp hfield
      exact ih entry hentry

end Node

namespace Entries

theorem tidy_nil : Tidy [] := ⟨List.nodup_nil, List.forall_mem_nil _⟩

theorem Tidy.fieldsOf {entries : Entries} (h : entries.Tidy) :
    Fields.Tidy (Node.fieldsOf entries) := by
  have htable : (Node.table .declared entries).Tidy := .table h.nodup h.entries
  have htidy := htable.toValue
  rwa [Node.toValue] at htidy

theorem Tidy.node {entries : Entries} (h : entries.Tidy) (origin : Origin) :
    (Node.table origin entries).Tidy := .table h.nodup h.entries

/-- Only the changed key can be new among the keys. -/
theorem mem_keys_alter {key : String} {f : Option Node → Option Node} {entries entries' : Entries}
    (h : alter key f entries = some entries') {k : String} (hk : k ∈ entries'.map Prod.fst) :
    k = key ∨ k ∈ entries.map Prod.fst := by
  induction entries generalizing entries' with
  | nil =>
      obtain ⟨node, -, rfl⟩ := Option.map_eq_some_iff.mp h
      exact .inl (by simpa using hk)
  | cons entry entries ih =>
      obtain ⟨k', node⟩ := entry
      rw [alter] at h
      split_ifs at h with heq
      · obtain ⟨node', -, rfl⟩ := Option.map_eq_some_iff.mp h
        exact .inr hk
      · obtain ⟨rest, hrest, rfl⟩ := Option.map_eq_some_iff.mp h
        rcases List.mem_cons.mp hk with rfl | hk
        · exact .inr List.mem_cons_self
        · exact (ih hrest hk).imp_right (List.mem_cons_of_mem k')

/-- A change that keeps parts tidy keeps the entries tidy. -/
theorem Tidy.alter {key : String} {f : Option Node → Option Node} {entries entries' : Entries}
    (h : entries.Tidy)
    (hf : ∀ old node, (∀ n ∈ old, Node.Tidy n) → f old = some node → node.Tidy)
    (halter : Entries.alter key f entries = some entries') : entries'.Tidy := by
  induction entries generalizing entries' with
  | nil =>
      obtain ⟨node, hnode, rfl⟩ := Option.map_eq_some_iff.mp halter
      exact ⟨List.nodup_singleton key, List.forall_mem_singleton.mpr (hf none node (by simp) hnode)⟩
  | cons entry entries ih =>
      obtain ⟨k, node⟩ := entry
      obtain ⟨hnew, hnodup⟩ := List.nodup_cons.mp h.nodup
      obtain ⟨hnode, hentries⟩ := List.forall_mem_cons.mp h.entries
      rw [Entries.alter] at halter
      split_ifs at halter with heq
      · obtain ⟨node', hnode', rfl⟩ := Option.map_eq_some_iff.mp halter
        have htidy : node'.Tidy := hf (some node) node' (by simpa using hnode) hnode'
        exact ⟨h.nodup, List.forall_mem_cons.mpr ⟨htidy, hentries⟩⟩
      · obtain ⟨rest, hrest, rfl⟩ := Option.map_eq_some_iff.mp halter
        have htidy := ih ⟨hnodup, hentries⟩ hrest
        refine ⟨List.nodup_cons.mpr ⟨fun hk => ?_, htidy.nodup⟩,
          List.forall_mem_cons.mpr ⟨hnode, htidy.entries⟩⟩
        rcases mem_keys_alter hrest hk with rfl | hk
        · exact heq (beq_self_eq_true _)
        · exact hnew hk

/-- What keeps the entries of every table tidy does so also at the end of a path. -/
theorem Tidy.within {change : Entries → Option Entries}
    (hchange : ∀ e e' : Entries, e.Tidy → change e = some e' → e'.Tidy) {path : List String}
    {entries entries' : Entries} (h : entries.Tidy)
    (hwithin : Entries.within change path entries = some entries') : entries'.Tidy := by
  induction path generalizing entries entries' with
  | nil => exact hchange entries entries' h hwithin
  | cons key path ih =>
      refine h.alter (fun old node hold hnode => ?_) hwithin
      match old with
      | none =>
          obtain ⟨inner, hinner, rfl⟩ := Option.map_eq_some_iff.mp hnode
          exact (ih tidy_nil hinner).node .implied
      | some (.leaf _) => cases hnode
      | some (.table origin inner) =>
          obtain ⟨inner', hinner, rfl⟩ := Option.map_eq_some_iff.mp hnode
          cases hold (.table origin inner) rfl with
          | table hnodup hentries => exact (ih ⟨hnodup, hentries⟩ hinner).node origin
      | some (.tables complete current) =>
          obtain ⟨current', hcurrent, rfl⟩ := Option.map_eq_some_iff.mp hnode
          cases hold (.tables complete current) rfl with
          | tables hnodup hentries =>
              have htidy := ih ⟨hnodup, hentries⟩ hcurrent
              exact .tables htidy.nodup htidy.entries

theorem Tidy.declare {key : String} {entries entries' : Entries} (h : entries.Tidy)
    (hdeclare : Entries.declare key entries = some entries') : entries'.Tidy := by
  refine h.alter (fun old node hold hnode => ?_) hdeclare
  match old with
  | none =>
      cases hnode
      exact tidy_nil.node .declared
  | some (.table .implied inner) =>
      cases hnode
      cases hold (.table .implied inner) rfl with
      | table hnodup hentries => exact .table hnodup hentries
  | some (.table .declared _) => cases hnode
  | some (.table (.dotted _) _) => cases hnode
  | some (.leaf _) => cases hnode
  | some (.tables _ _) => cases hnode

theorem Tidy.extend {key : String} {entries entries' : Entries} (h : entries.Tidy)
    (hextend : Entries.extend key entries = some entries') : entries'.Tidy := by
  refine h.alter (fun old node _ hnode => ?_) hextend
  match old with
  | none => cases hnode; exact .tables List.nodup_nil (List.forall_mem_nil _)
  | some (.tables _ _) => cases hnode; exact .tables List.nodup_nil (List.forall_mem_nil _)
  | some (.leaf _) => cases hnode
  | some (.table _ _) => cases hnode

theorem Tidy.assign {section_ : Nat} {v : Value} (hv : v.Tidy) {path : List String}
    {entries entries' : Entries} (h : entries.Tidy)
    (hassign : Entries.assign section_ v path entries = some entries') : entries'.Tidy := by
  induction path generalizing entries entries' with
  | nil => cases hassign
  | cons key path ih =>
      cases path with
      | nil =>
          refine h.alter (fun old node _ hnode => ?_) hassign
          cases old with
          | none => cases hnode; exact .leaf hv
          | some _ => cases hnode
      | cons key' path =>
          refine h.alter (fun old node hold hnode => ?_) hassign
          match old with
          | none =>
              obtain ⟨inner, hinner, rfl⟩ := Option.map_eq_some_iff.mp hnode
              exact (ih tidy_nil hinner).node _
          | some (.table .implied inner) =>
              obtain ⟨inner', hinner, rfl⟩ := Option.map_eq_some_iff.mp hnode
              cases hold (.table .implied inner) rfl with
              | table hnodup hentries => exact (ih ⟨hnodup, hentries⟩ hinner).node _
          | some (.table (.dotted n) inner) =>
              dsimp only at hnode
              split_ifs at hnode
              obtain ⟨inner', hinner, rfl⟩ := Option.map_eq_some_iff.mp hnode
              cases hold (.table (.dotted n) inner) rfl with
              | table hnodup hentries => exact (ih ⟨hnodup, hentries⟩ hinner).node _
          | some (.table .declared _) => cases hnode
          | some (.leaf _) => cases hnode
          | some (.tables _ _) => cases hnode

end Entries

/-! ### Values -/

theorem isTable_of_flagValue {cs rest : List Char} {v : Value}
    (h : flagValue cs = some (v, rest)) : v.isTable = false := by
  rw [flagValue] at h
  split_ifs at h <;> cases h <;> rfl

theorem isTable_of_calendarValue {cs rest : List Char} {v : Value}
    (h : calendarValue? cs = some (some (v, rest))) : v.isTable = false := by
  rw [calendarValue?] at h
  split at h
  · -- a date, with or without a time
    simp only [Option.some_inj] at h
    split_ifs at h
    repeat' split at h
    all_goals cases h; rfl
  · obtain ⟨⟨time, _⟩, -, htime⟩ := Option.map_eq_some_iff.mp h
    cases htime
    rfl

theorem isTable_of_basedNumber {cs rest : List Char} {v : Value}
    (h : basedNumber cs = some (v, rest)) : v.isTable = false := by
  unfold basedNumber at h
  split at h
  · extract_lets finish at h
    have hfinish (base : Nat) (hread : finish base = some (v, rest)) : v.isTable = false := by
      obtain ⟨_, -, hread⟩ := Option.bind_eq_some_iff.mp hread
      cases hread
      rfl
    split at h
    · exact hfinish _ h
    · exact hfinish _ h
    · exact hfinish _ h
    · cases h
  · cases h

theorem isTable_of_decimalNumber {cs rest : List Char} {v : Value}
    (h : decimalNumber cs = some (.ok v, rest)) : v.isTable = false := by
  unfold decimalNumber at h
  extract_lets isDigit at h
  split at h
  extract_lets finish at h
  have hfinish (read : List Char × List Char) (hread : finish read = some (.ok v, rest)) :
      v.isTable = false := by
    simp only [finish] at hread
    repeat' split at hread
    all_goals
      obtain ⟨found, -, hread⟩ := Option.bind_eq_some_iff.mp hread
      -- a whole number, which can have too many digits, or a real one
      first
        | cases hread; rfl
        | cases found <;> cases hread; rfl
  split at h
  all_goals
    obtain ⟨read, -, h⟩ := Option.bind_eq_some_iff.mp h
    exact hfinish read h

theorem isTable_of_wordValue {cs rest : List Char} {v : Value}
    (h : wordValue cs = some (v, rest)) : v.isTable = false := by
  obtain ⟨⟨word, w⟩, hmem, hfound⟩ := List.exists_of_findSome?_eq_some h
  have hw : w.isTable = false := by
    simp only [List.mem_cons, Prod.mk.injEq, List.not_mem_nil, or_false] at hmem
    rcases hmem with h | h | h | h | h | h <;> rw [h.2] <;> rfl
  dsimp only at hfound
  split_ifs at hfound
  cases hfound
  exact hw

theorem eq_some_of_required {α : Type} {found : Option α} {a : α} (h : required found = .ok a) :
    found = some a := by
  cases found with
  | none => cases h
  | some _ => exact congrArg some (Except.ok.inj h)

/-- A value that is neither a text, nor a list, nor a table is none of these. -/
theorem isTable_of_scalar {cs rest : List Char} {v : Value} (h : scalar cs = .ok (v, rest)) :
    v.isTable = false := by
  rw [scalar] at h
  split at h
  · next hflag =>
      cases h
      exact isTable_of_flagValue hflag
  · split at h
    · next hcalendar =>
        rw [eq_some_of_required h] at hcalendar
        exact isTable_of_calendarValue hcalendar
    · split at h
      · next hbased =>
          cases h
          exact isTable_of_basedNumber hbased
      · split at h
        · next hdecimal =>
            cases h
            exact isTable_of_decimalNumber hdecimal
        · cases h
        · exact isTable_of_wordValue (eq_some_of_required h)

/-- The readers of values and of the entries between braces call each other, and both give tidy
values. -/
theorem tidy_of_readers (fuel : Nat) :
    (∀ cs v rest, value fuel cs = .ok (v, rest) → v.Tidy) ∧
      ∀ entries cs entries' rest, inlineItems fuel entries cs = .ok (entries', rest) →
        Entries.Tidy entries → Entries.Tidy entries' := by
  induction fuel with
  | zero => exact ⟨fun _ _ _ h => by simp [value] at h, fun _ _ _ _ h => by simp [inlineItems] at h⟩
  | succ fuel ih =>
      obtain ⟨ihvalue, ihitems⟩ := ih
      constructor
      · intro cs v rest h
        unfold value at h
        split at h
        · obtain ⟨_, -, h⟩ := bind_eq_ok_iff.mp h
          cases h
          exact .plain rfl
        · split at h
          · obtain ⟨_, -, h⟩ := bind_eq_ok_iff.mp h
            split at h
            · cases h
              exact .plain rfl
            · obtain ⟨_, -, h⟩ := bind_eq_ok_iff.mp h
              cases h
              exact .plain rfl
          · split at h
            · cases h
              exact .table List.nodup_nil (List.forall_mem_nil _)
            · obtain ⟨⟨entries, _⟩, hentries, h⟩ := bind_eq_ok_iff.mp h
              cases h
              exact (ihitems _ _ _ _ hentries Entries.tidy_nil).fieldsOf
          · exact .plain (isTable_of_scalar h)
      · intro entries cs entries' rest h hentries
        unfold inlineItems at h
        obtain ⟨⟨path, rest₁⟩, -, h⟩ := bind_eq_ok_iff.mp h
        obtain ⟨rest₂, -, h⟩ := bind_eq_ok_iff.mp h
        obtain ⟨⟨item, rest₃⟩, hitem, h⟩ := bind_eq_ok_iff.mp h
        obtain ⟨next, hnext, h⟩ := bind_eq_ok_iff.mp h
        have htidy : Entries.Tidy next :=
          hentries.assign (ihvalue _ _ _ hitem) (eq_some_of_required hnext)
        split at h
        · cases h
          exact htidy
        · exact ihitems _ _ _ _ h htidy
        · cases h

/-! ### Lines -/

/-- The value of an assignment has no repeated keys. -/
def Statement.Tidy : Statement → Prop
  | .header _ => True
  | .listHeader _ => True
  | .assignment _ v => v.Tidy

theorem tidy_of_statement {fuel : Nat} {cs rest : List Char} {found : Option Statement}
    (h : statement fuel cs = .ok (found, rest)) : ∀ line ∈ found, line.Tidy := by
  unfold statement at h
  split at h
  · cases h; simp
  · cases h; simp
  · cases h; simp
  · obtain ⟨_, -, h⟩ := bind_eq_ok_iff.mp h
    obtain ⟨_, -, h⟩ := bind_eq_ok_iff.mp h
    obtain ⟨_, -, h⟩ := bind_eq_ok_iff.mp h
    cases h
    simp [Statement.Tidy]
  · obtain ⟨_, -, h⟩ := bind_eq_ok_iff.mp h
    obtain ⟨_, -, h⟩ := bind_eq_ok_iff.mp h
    cases h
    simp [Statement.Tidy]
  · obtain ⟨_, -, h⟩ := bind_eq_ok_iff.mp h
    obtain ⟨_, -, h⟩ := bind_eq_ok_iff.mp h
    obtain ⟨⟨item, _⟩, hitem, h⟩ := bind_eq_ok_iff.mp h
    cases h
    have htidy : item.Tidy := (tidy_of_readers fuel).1 _ _ _ hitem
    simpa [Statement.Tidy] using htidy

/-- A line keeps what was read so far tidy. -/
theorem tidy_add {d d' : Draft} {line : Statement} (hd : d.entries.Tidy) (hline : line.Tidy)
    (h : d.add line = some d') : d'.entries.Tidy := by
  cases line with
  | header path =>
      obtain ⟨last, -, h⟩ := Option.bind_eq_some_iff.mp h
      obtain ⟨entries, hentries, h⟩ := Option.bind_eq_some_iff.mp h
      cases h
      exact hd.within (fun _ _ he hchange => he.declare hchange) hentries
  | listHeader path =>
      obtain ⟨last, -, h⟩ := Option.bind_eq_some_iff.mp h
      obtain ⟨entries, hentries, h⟩ := Option.bind_eq_some_iff.mp h
      cases h
      exact hd.within (fun _ _ he hchange => he.extend hchange) hentries
  | assignment path v =>
      obtain ⟨entries, hentries, h⟩ := Option.bind_eq_some_iff.mp h
      cases h
      exact hd.within (fun _ _ he hchange => he.assign hline hchange) hentries

/-- All lines together keep what was read so far tidy. -/
theorem tidy_of_lines {fuel : Nat} {d d' : Draft} {cs : List Char} (hd : d.entries.Tidy)
    (h : lines fuel d cs = .ok d') : d'.entries.Tidy := by
  induction fuel generalizing d cs with
  | zero => cases h
  | succ fuel ih =>
      unfold lines at h
      obtain ⟨⟨found, rest⟩, hfound, h⟩ := bind_eq_ok_iff.mp h
      obtain ⟨next, hnext, h⟩ := bind_eq_ok_iff.mp h
      have htidy : next.entries.Tidy := by
        cases found with
        | none => cases hnext; exact hd
        | some line =>
            exact tidy_add hd (tidy_of_statement hfound line rfl) (eq_some_of_required hnext)
      obtain ⟨rest', -, h⟩ := bind_eq_ok_iff.mp h
      split at h
      · cases h
        exact htidy
      · exact ih htidy h
      · cases h

/-- No key repeats in the table of a file. -/
theorem tidy_of_ofBytes {bytes : ByteArray} {fields : Fields} (h : ofBytes bytes = .ok fields) :
    Fields.Tidy fields := by
  rw [ofBytes] at h
  split at h
  · rw [ofText] at h
    obtain ⟨draft, hdraft, h⟩ := bind_eq_ok_iff.mp h
    cases h
    exact (tidy_of_lines Entries.tidy_nil hdraft).fieldsOf
  · cases h

end Vigil.Toml
