/-!
# Refused parameters

Some families of automata have no member for every choice of numbers.  A
refusal says which number was out of range.
-/

namespace WordAutomata

/-- The reasons for which a family has no member for the given numbers. -/
inductive Refusal where
  /-- There are only twenty-six lowercase letters. -/
  | alphabetTooLarge
  | noStates
  /-- The last symbol of a word has position one from the end. -/
  | positionZero
  deriving DecidableEq

def Refusal.message : Refusal → String
  | alphabetTooLarge => "Alphabet is too large"
  | noStates => "an automaton needs at least one state"
  | positionZero => "position from the end starts at 1"

end WordAutomata
