/-!
# Rounding

Binary fractions are rounded to the nearest one that has at most a given number
of significant digits.  A tie goes to the even neighbour.
-/

namespace WordAutomata.Random

/-- The whole number nearest to a quotient; a tie goes to the even one. -/
def nearest (numerator denominator : Nat) : Nat :=
  let below := numerator / denominator
  let twice := 2 * (numerator % denominator)
  if twice < denominator then below
  else if denominator < twice then below + 1
  else if below % 2 = 0 then below
  else below + 1

/-- The number of significant binary digits that are kept. -/
def precision : Nat :=
  53

/--
The whole number nearest to a quotient among those that are zero after the
first `precision` binary digits.
-/
def nearestSignificant (numerator denominator : Nat) : Nat :=
  let dropped := (numerator / denominator).log2 + 1 - precision
  nearest numerator (denominator * Nat.pow 2 dropped) * Nat.pow 2 dropped

end WordAutomata.Random
