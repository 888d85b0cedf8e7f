/-!
# Sets of characters

A set of characters is written as the ranges of code points that it holds, in
ascending order.  The properties that text measuring looks at are such sets.
-/

namespace WordAutomata.Text

/-- A set of characters, as the ranges of its code points with both ends included. -/
structure CharacterSet where
  ranges : List (Nat × Nat)

namespace CharacterSet

def contains (set : CharacterSet) (character : Char) : Bool :=
  set.ranges.any fun range => range.1 ≤ character.toNat && character.toNat ≤ range.2

end CharacterSet

end WordAutomata.Text
