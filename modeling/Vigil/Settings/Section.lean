import Vigil.Settings.Fault

/-!
# Sections that are not tables

A section should be a table, but a file can put any value in its place. A list of pairs then still
serves where only keys and values are asked for, and whatever has members serves where only the
names of its members are asked for.
-/

namespace Vigil.Settings

/-- The members of a value: characters of a text, items of a list, keys of a table. -/
def members? : Value → Option (List Value)
  | .text s => some (s.toList.map fun c => .text (String.singleton c))
  | .list items => some items
  | .table fields => some ((Fields.keys fields).map .text)
  | _ => none

/-- The two members of an item that stands for a field; the first one is a key. -/
def pairOf (position : Nat) (item : Value) : Except Fault (Value × Value) :=
  match members? item with
  | none => .error (.defect .wrongKind)
  | some [key, value] =>
      if key.canBeMember then .ok (key, value) else .error (.defect .wrongKind)
  | some items => .error (.notAPair position items.length)

/-- The keys and values of a section, in order. -/
def pairsOf (v : Value) : Except Fault (List (Value × Value)) :=
  match v with
  | .table fields => .ok (fields.map fun (key, value) => (.text key, value))
  | _ =>
      match members? v with
      | some items => items.zipIdx.mapM fun (item, position) => pairOf position item
      | none => .error (.defect .wrongKind)

/-- The fields of a section, the last of those with the same key. All keys have to be texts. -/
def fieldsOf (v : Value) : Except Fault Fields := do
  (← pairsOf v).foldlM
    (fun fields (key, value) =>
      match key with
      | .text name => .ok (Fields.put fields name value)
      | _ => .error (.defect .wrongKind))
    []

/-- Those names that are not among the known ones, in order and each once. -/
def unknownAmong (known names : List String) : List String :=
  (names.filter fun name => !known.contains name).eraseDups.mergeSort fun a b => decide (a ≤ b)

/-- All names have to be among the known ones. -/
def requireKnown (section_ : String) (known names : List String) : Except Fault Unit :=
  match unknownAmong known names with
  | [] => .ok ()
  | unknown => .error (.unknownKeys section_ unknown)

/-- The names of the members of a section. All members have to be texts. -/
def namesOf (v : Value) : Except Fault (List String) :=
  match members? v with
  | none => .error (.defect .wrongKind)
  | some items =>
      items.mapM fun item =>
        match item with
        | .text name => .ok name
        | _ => .error (.defect .wrongKind)

/-- The fields of a section that has to be a table. -/
def tableOf (v : Value) : Except Fault Fields :=
  match v with
  | .table fields => .ok fields
  | _ => .error (.defect .missingPart)

end Vigil.Settings
