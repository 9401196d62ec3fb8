import Vigil.Calendar
import Vigil.Number.Amount
import Vigil.Status
import Vigil.Text.Quoted

/-!
# Values

The answers of a service and the contents of a configuration file are trees whose shape nobody
promises. A `Value` is such a tree; tables keep the order of their keys, because messages show it.
-/

namespace Vigil

open Number (Amount)
open Calendar (Date TimeOfDay Moment)

/-- A tree of data. -/
inductive Value where
  | null
  | flag (b : Bool)
  | whole (n : Int)
  | real (x : Float)
  | text (s : String)
  /-- A word of a status vocabulary; it reads as its text. -/
  | word (w : StatusWord)
  | list (items : List Value)
  | table (fields : List (String × Value))
  | date (d : Date)
  | time (t : TimeOfDay)
  | moment (m : Moment)
  deriving Inhabited

/-- The fields of a table, in order; keys do not repeat. -/
abbrev Fields := List (String × Value)

namespace Fields

def get? (fields : Fields) (key : String) : Option Value :=
  (fields.find? fun field => field.1 == key).map Prod.snd

def keys (fields : Fields) : List String := fields.map Prod.fst

/-- Puts a value at a key: in its place if the key is there, at the end otherwise. -/
def put (fields : Fields) (key : String) (value : Value) : Fields :=
  if fields.any fun field => field.1 == key then
    fields.map fun field => if field.1 == key then (key, value) else field
  else fields ++ [(key, value)]

/-- Puts a value at a key that is not there yet. -/
def putIfMissing (fields : Fields) (key : String) (value : Value) : Fields :=
  if fields.any fun field => field.1 == key then fields else fields ++ [(key, value)]

end Fields

namespace Value

/-- The text of a value that is one. -/
def asText? : Value → Option String
  | text s => some s
  | word w => some w.text
  | _ => none

/-- The number of a value that is one; truth values count as numbers. -/
def asAmount? : Value → Option Amount
  | flag b => some (.flag b)
  | whole n => some (.whole n)
  | real x => some (.real x)
  | _ => none

/-- Nothing, zero and what is empty do not count as an answer. -/
def truthy : Value → Bool
  | null => false
  | flag b => b
  | whole n => n != 0
  | real x => x != 0
  | text s => !s.isEmpty
  | word w => !w.text.isEmpty
  | list items => !items.isEmpty
  | table fields => !fields.isEmpty
  | date _ => true
  | time _ => true
  | moment _ => true

/-- Lists and tables cannot be members of a set. -/
def canBeMember : Value → Bool
  | list _ => false
  | table _ => false
  | _ => true

/-- How the kind of a value is called when a caller asks it for something it does not have. -/
def kindName : Value → String
  | null => "NoneType"
  | flag _ => "bool"
  | whole _ => "int"
  | real _ => "float"
  | text _ => "str"
  | word (.cluster _) => "ClusterStatus"
  | word (.update _) => "UpdateStatus"
  | list _ => "list"
  | table _ => "dict"
  | date _ => "datetime.date"
  | time _ => "datetime.time"
  | moment _ => "datetime.datetime"

mutual

/-- A value as it is shown inside others and in error messages: texts are quoted. -/
def quoted : Value → Except Defect String
  | null => .ok "None"
  | flag b => (Amount.flag b).text
  | whole n => (Amount.whole n).text
  | real x => (Amount.real x).text
  | text s => .ok (Text.quoted s)
  | word w => .ok (w.titled Text.quoted)
  | list items => do return "[" ++ (← quotedItems items) ++ "]"
  | table fields => do return "\x7b" ++ (← quotedFields fields) ++ "\x7d"
  | date d => .ok d.quoted
  | time t => .ok t.quoted
  | moment m => .ok m.quoted

/-- Items separated by commas. -/
def quotedItems : List Value → Except Defect String
  | [] => .ok ""
  | [item] => quoted item
  | item :: items => do return (← quoted item) ++ ", " ++ (← quotedItems items)

/-- Fields separated by commas, each key quoted and followed by its value. -/
def quotedFields : List (String × Value) → Except Defect String
  | [] => .ok ""
  | [(key, item)] => do return Text.quoted key ++ ": " ++ (← quoted item)
  | (key, item) :: fields => do
      return Text.quoted key ++ ": " ++ (← quoted item) ++ ", " ++ (← quotedFields fields)

end

/-- A value as it is shown on its own. -/
def shown : Value → Except Defect String
  | text s => .ok s
  | word w => .ok w.text
  | date d => .ok d.text
  | time t => .ok t.text
  | moment m => .ok m.text
  | v => v.quoted

end Value

end Vigil
