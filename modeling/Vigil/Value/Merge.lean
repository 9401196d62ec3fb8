import Vigil.Value

/-!
# Laying one table over another

Settings come from several places, and a later place may say less than an earlier one. So tables are
merged all the way down, and only what is not a table on both sides is replaced as a whole.
-/

namespace Vigil

mutual

/-- Lays a value over another one: tables are merged, everything else is replaced. -/
def Value.over (base : Value) : Value → Value
  | .table fields =>
      match base with
      | .table baseFields => .table (Fields.merge baseFields fields)
      | _ => .table fields
  | v => v

/-- Lays a table over another one. The keys of the lower table stay in their places, and the new
keys follow in their own order. -/
def Fields.merge (base : Fields) : List (String × Value) → Fields
  | [] => base
  | field :: fields => Fields.merge (Fields.mergeField base field) fields

/-- Lays one field over a table. -/
def Fields.mergeField (base : Fields) : String × Value → Fields
  | (key, v) =>
      Fields.put base key
        (match Fields.get? base key with
          | some old => Value.over old v
          | none => v)

end

end Vigil
