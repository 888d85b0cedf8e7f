import WordAutomata.Random.Double

/-!
# Sources of random values

Random automata can be drawn from any source of random values.  A source is a
value of its own: each draw gives a value and the source from which to draw on,
and both depend on the source alone.  Nothing is asked of the values.
-/

namespace WordAutomata.Random

/-- How values are drawn from sources of the given type. -/
class Source (σ : Type) where
  /-- Draws a number that should be below a positive bound. -/
  below : Nat → σ → Nat × σ
  flip : σ → Bool × σ
  /-- Draws a number that should be zero or more and less than one. -/
  unit : σ → Double × σ

end WordAutomata.Random
