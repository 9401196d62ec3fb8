import Vigil.Calendar.Stamp
import Vigil.Number.Amount

/-!
# Clocks and waits

A watch runs on a clock whose instants and spans are both counted in seconds. Nothing below depends
on how a clock counts: doubles serve to run, and exact numbers serve to reason. Waits are written
down in a form of their own, which messages repeat, and are turned into spans only when they are
needed.
-/

namespace Vigil

/-- A way to count time. -/
class Clock (τ : Type) where
  /-- The instant at which a clock starts, and the empty span. -/
  zero : τ
  add : τ → τ → τ
  sub : τ → τ → τ
  lt : τ → τ → Bool
  le : τ → τ → Bool
  /-- The instant is one that a clock can reach. -/
  isFinite : τ → Bool
  /-- The instant as a calendar shows it, which may be less precise; `none` beyond the calendar. -/
  stamp? : τ → Option τ
  /-- A span with one place after the point. -/
  tenths : τ → String

namespace Clock

variable {τ : Type} [Clock τ]

/-- A timer that is due at an instant fires from that instant on. -/
def reached (now due : τ) : Bool := le due now

/-- The span from one instant to a later one; nothing if the later one has passed. -/
def left (now due : τ) : τ :=
  let span := sub due now
  if lt span zero then zero else span

/-- The earliest of some instants. -/
def earliest : List τ → Option τ
  | [] => none
  | t :: ts =>
      match earliest ts with
      | none => some t
      | some s => if lt s t then some s else some t

end Clock

/-- A way to write down waits. -/
class Wait (ω : Type) where
  isNegative : ω → Bool
  isPositive : ω → Bool
  /-- The first wait is strictly shorter than the second. -/
  shorter : ω → ω → Bool
  /-- The wait as it was written down, unless that takes too many digits. -/
  text : ω → Except Defect String

namespace Wait

variable {ω : Type} [Wait ω]

/-- The longer of two waits; the first unless the second is strictly longer. -/
def longer (a b : ω) : ω := if shorter a b then b else a

end Wait

/-- How a wait is turned into a span of a clock. -/
class Spans (ω τ : Type) where
  /-- The span of a wait; `none` if it is longer than the clock can count. -/
  span? : ω → Option τ

/-- Why somebody who waits is never served. -/
inductive Stall where
  /-- Nobody can go on, and no timer is going to ring. -/
  | forever
  /-- The wait is longer than the clock can count. -/
  | tooLong
  deriving DecidableEq, Repr, Inhabited

namespace Spans

variable {ω τ : Type} [Clock τ] [Wait ω] [Spans ω τ]

/-- The span that a wait takes when it begins now; `none` if it takes no time, as every wait that is
not above zero. -/
def lapse (now : τ) (delay : ω) : Except Stall (Option τ) :=
  if Wait.isPositive delay then
    match span? delay with
    | none => .error .tooLong
    | some span => if Clock.isFinite (Clock.add now span) then .ok (some span) else .error .forever
  else .ok none

end Spans

open Number (Amount)

/-- Seconds counted by doubles. -/
instance : Clock Float where
  zero := 0.0
  add := (· + ·)
  sub := (· - ·)
  lt a b := decide (a < b)
  le a b := decide (a ≤ b)
  isFinite := Float.isFinite
  stamp? := Calendar.stamp?
  tenths := Number.plainLayout.tenthsText

instance : Wait Amount where
  isNegative := Amount.isNegative
  isPositive := Amount.isPositive
  shorter := Amount.lt
  text := Amount.text

instance : Spans Amount Float where
  span? := Amount.toFloat?

/-- Whole seconds, counted exactly. -/
instance : Clock Int where
  zero := 0
  add := (· + ·)
  sub := (· - ·)
  lt a b := decide (a < b)
  le a b := decide (a ≤ b)
  isFinite _ := true
  stamp? := some
  tenths n := toString n ++ ".0"

instance : Wait Int where
  isNegative n := decide (n < 0)
  isPositive n := decide (0 < n)
  shorter a b := decide (a < b)
  text := Number.wholeText

instance : Spans Int Int where
  span? := some

end Vigil
