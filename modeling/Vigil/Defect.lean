/-!
# Data of an unexpected shape

Answers come from outside and may have any shape. A computation on one stops with a `Defect` when it
asks a value for something that its kind does not have.
-/

namespace Vigil

/-- Why a computation on outside data cannot go on. -/
inductive Defect where
  /-- The kind of the value has no such part. -/
  | missingPart
  /-- The table has no such key. -/
  | missingKey
  /-- The operation does not apply to values of this kind. -/
  | wrongKind
  /-- The number is larger than the largest double. -/
  | tooLarge
  /-- The whole number has more digits than are written. -/
  | unwritable
  /-- The whole number has more digits than are read, and this many. -/
  | unreadable (digits : Nat)
  deriving DecidableEq, Repr, Inhabited

end Vigil
