/-!
# Decimal digits of all scripts

Each script that counts in tens has ten digits next to each other, zero first. The zeros are those
of version 14 of the Unicode character database.
-/

namespace Vigil.Text

/-- The code points of the zeros, in increasing order. -/
def zeroDigits : List Nat :=
  [0x00030, 0x00660, 0x006f0, 0x007c0, 0x00966, 0x009e6, 0x00a66, 0x00ae6, 0x00b66, 0x00be6,
   0x00c66, 0x00ce6, 0x00d66, 0x00de6, 0x00e50, 0x00ed0, 0x00f20, 0x01040, 0x01090, 0x017e0,
   0x01810, 0x01946, 0x019d0, 0x01a80, 0x01a90, 0x01b50, 0x01bb0, 0x01c40, 0x01c50, 0x0a620,
   0x0a8d0, 0x0a900, 0x0a9d0, 0x0a9f0, 0x0aa50, 0x0abf0, 0x0ff10, 0x104a0, 0x10d30, 0x11066,
   0x110f0, 0x11136, 0x111d0, 0x112f0, 0x11450, 0x114d0, 0x11650, 0x116c0, 0x11730, 0x118e0,
   0x11950, 0x11c50, 0x11d50, 0x11da0, 0x16a60, 0x16ac0, 0x16b50, 0x1d7ce, 0x1d7d8, 0x1d7e2,
   0x1d7ec, 0x1d7f6, 0x1e140, 0x1e2f0, 0x1e950, 0x1fbf0]

/-- The value of a decimal digit of any script. -/
def decimal? (c : Char) : Option Nat :=
  (zeroDigits.find? fun first => decide (first ≤ c.toNat) && decide (c.toNat < first + 10)).map
    fun first => c.toNat - first

/-- The character is a decimal digit of some script. -/
def isDecimal (c : Char) : Bool := (decimal? c).isSome

/-- A decimal digit in plain characters; any other character is left alone. -/
def plainDigit (c : Char) : Char :=
  match decimal? c with
  | some n => Char.ofNat ('0'.toNat + n)
  | none => c

/-- A digit is less than ten. -/
theorem decimal?_lt {c : Char} {n : Nat} (h : decimal? c = some n) : n < 10 := by
  obtain ⟨first, hfirst, rfl⟩ := Option.map_eq_some_iff.1 h
  have hrange := List.find?_some hfirst
  simp only [Bool.and_eq_true, decide_eq_true_eq] at hrange
  omega

end Vigil.Text
