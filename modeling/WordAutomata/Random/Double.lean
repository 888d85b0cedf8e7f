import WordAutomata.Random.Rounding

/-!
# Double-precision numbers

A double-precision number is kept exactly, as a multiple of the least positive
one, so that finite numbers compare as whole numbers do.  Two more values are
infinite, and one is not a number: it is neither less than anything nor greater.
-/

namespace WordAutomata.Random

/-- A double-precision number; both zeros are the same. -/
inductive Double where
  /-- The number as a multiple of `2 ^ (-1074)`. -/
  | finite (units : Int)
  | infinity
  | negativeInfinity
  | notANumber
  deriving DecidableEq

/-- Applies a function to the magnitude of a number and keeps the sign. -/
def onMagnitude (function : Nat → Nat) (number : Int) : Int :=
  if number < 0 then -(function number.natAbs : Int) else (function number.natAbs : Int)

namespace Double

/-- The number nearest to `mantissa * 10 ^ (-places)`; it is infinite from `2 ^ 1024` on. -/
def ofDecimal (mantissa : Int) (places : Nat) : Double :=
  let units := onMagnitude
    (fun magnitude =>
      nearestSignificant (magnitude * Nat.pow 2 1074) (Nat.pow 10 places))
    mantissa
  if units.natAbs < Nat.pow 2 2098 then .finite units
  else if units < 0 then .negativeInfinity
  else .infinity

/-- Half of a number; below the least positive one a tie goes to the even neighbour. -/
def halved : Double → Double
  | finite units => finite (onMagnitude (nearest · 2) units)
  | other => other

/-- Whether the first number is less than the second one. -/
def less : Double → Double → Bool
  | finite left, finite right => left < right
  | finite _, infinity => true
  | negativeInfinity, finite _ => true
  | negativeInfinity, infinity => true
  | _, _ => false

/-- Whether the first number is less than the second one or equal to it. -/
def atMost : Double → Double → Bool
  | finite left, finite right => left ≤ right
  | finite _, infinity => true
  | infinity, infinity => true
  | negativeInfinity, finite _ => true
  | negativeInfinity, infinity => true
  | negativeInfinity, negativeInfinity => true
  | _, _ => false

end Double

/-- How likely an edge is; it may be any number, also below zero or above one. -/
abbrev Density : Type :=
  Double

end WordAutomata.Random
