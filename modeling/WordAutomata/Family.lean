import WordAutomata.Description.Resolve
import WordAutomata.Refusal

/-!
# Families of automata

A family has one automaton for each choice of some numbers.  Its members are
given by descriptions whose states are named by their numbers.
-/

namespace WordAutomata.Family

/-- Why a family has no member with the given numbers. -/
inductive Error where
  | refused (reason : Refusal)
  | malformed (flaw : Malformed Char)
  deriving DecidableEq

def Error.message : Error → String
  | refused reason => reason.message
  | malformed flaw => flaw.message

/-- The member with the given description. -/
def member (description : Description Char) : Except Error (Automaton Char) :=
  description.resolve.mapError .malformed

/-- The name of the state with the given number in a numbered row of states. -/
def stateName (number : Nat) : String :=
  "q" ++ render number

/--
An automaton that guesses which symbol is the one with the given position from
the end.  Its first state reads anything until the guess, and each later state
counts one more symbol.
-/
def fromLastDescription (position : Nat) : Description Char :=
  let guess :=
    ({ alphabet := ['0', '1'] } : Description Char)
      |>.initial (stateName 0)
      |>.accepting [stateName position]
      |>.edge (stateName 0) '0' (stateName 0)
      |>.edge (stateName 0) '1' (stateName 0)
      |>.edge (stateName 0) '1' (stateName 1)
  (List.range' 1 (position - 1)).foldl
    (fun description number =>
      description
        |>.edge (stateName number) '0' (stateName (number + 1))
        |>.edge (stateName number) '1' (stateName (number + 1)))
    guess

/--
The automaton over zeros and ones that accepts the words with a one at the
given position from the end, where the last symbol has position one.
-/
def nthFromLastIsOne (position : Nat) : Except Error (Automaton Char) :=
  if position = 0 then
    .error (.refused .positionZero)
  else
    member (fromLastDescription position)

end WordAutomata.Family
