import Vigil.Value

/-!
# Failures with an error number

An operating system numbers what can go wrong. A failure that it reports has two to five arguments:
the number, the reason, and perhaps a path, a place that stays empty here, and a second path. With
fewer or more arguments such a failure is like any other.
-/

namespace Vigil.ErrorNumber

/-- The kinds of failures that can have a number. -/
def kinds : List String := ["OSError", "ConnectionError", "TimeoutError", "PermissionError"]

/-- The kind whose numbers decide which narrower kind a failure is of. -/
def widestKind : String := "OSError"

/-- The kind of a failure that would have had to wait. -/
def blockedKind : String := "BlockingIOError"

/-- The narrower kinds with their numbers. -/
def narrowerKinds : List (String × List Int) :=
  [(blockedKind, [11, 114, 115]), ("BrokenPipeError", [32, 108]),
   ("ChildProcessError", [10]), ("ConnectionAbortedError", [103]),
   ("ConnectionRefusedError", [111]), ("ConnectionResetError", [104]), ("FileExistsError", [17]),
   ("FileNotFoundError", [2]), ("InterruptedError", [4]), ("IsADirectoryError", [21]),
   ("NotADirectoryError", [20]), ("PermissionError", [1, 13]), ("ProcessLookupError", [3]),
   ("TimeoutError", [110])]

/-- The arguments of a failure with a number: the number, the reason and what follows. -/
def parts? (kind : String) : List Value → Option (Value × Value × List Value)
  | number :: reason :: rest =>
      if kinds.contains kind && decide (rest.length ≤ 3) then some (number, reason, rest) else none
  | _ => none

/-- The whole number that a value stands for. -/
def whole? : Value → Option Int
  | .flag b => some (if b then 1 else 0)
  | .whole n => some n
  | _ => none

/-- The kind of a failure, which its number may make narrower. -/
def kindOf (kind : String) (args : List Value) : String :=
  match parts? kind args with
  | some (number, _, _) =>
      if kind == widestKind then
        match whole? number with
        | some n => ((narrowerKinds.find? fun row => row.2.contains n).map Prod.fst).getD kind
        | none => kind
      else kind
  | none => kind

/-- A failure that would have had to wait says how much it did before, where other failures have
their path: then it has no paths. -/
def countsWork (kind : String) (args rest : List Value) : Bool :=
  kindOf kind args == blockedKind && (rest[0]?.bind whole?).isSome

/-- A path of a failure; nothing stands for no path. -/
def path? : Option Value → Option Value
  | none => none
  | some .null => none
  | some v => some v

/-- The paths of a failure as its message ends. -/
def pathsText (rest : List Value) : Except Defect String :=
  match path? rest[0]?, path? rest[2]? with
  | none, _ => .ok ""
  | some first, none => do return ": " ++ (← first.quoted)
  | some first, some second => do return ": " ++ (← first.quoted) ++ " -> " ++ (← second.quoted)

/-- The message of a failure with a number; `none` if it has no number. -/
def text? (kind : String) (args : List Value) : Option (Except Defect String) :=
  (parts? kind args).map fun (number, reason, rest) => do
    let opening := "[Errno " ++ (← number.shown) ++ "] " ++ (← reason.shown)
    if countsWork kind args rest then return opening else return opening ++ (← pathsText rest)

end Vigil.ErrorNumber
