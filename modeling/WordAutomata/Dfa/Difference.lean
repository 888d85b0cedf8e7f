import WordAutomata.Dfa.Basic

/-!
# Words on which two automata differ

Two deterministic automata are compared by a breadth-first search through the
pairs of states that a word can lead to.  Symbols are explored in the order of
the alphabet of the first automaton.  A missing edge leads to no state at all,
from which nothing is accepted, and so does a symbol that the second automaton
does not know.  The first pair of which exactly one side accepts gives the
least word, in length-lexicographic order, on which the automata differ.
-/

namespace WordAutomata.Dfa

variable {α : Type} [DecidableEq α]

/-- Whether a run accepts that is in the given state, or has lost its way. -/
def acceptsAt (dfa : Dfa α) : Option Nat → Bool
  | some state => dfa.automaton.isAccepting state
  | none => false

/-- The graph of the pairs of states of two automata. -/
def pairGraph (left right : Dfa α) : Graph α (Option Nat × Option Nat) where
  edges pair :=
    left.automaton.alphabet.symbols.map fun value =>
      (value,
        (pair.1.bind (left.successor? · value), pair.2.bind (right.successor? · value)))
  isLeaf _ := false

/-- The search for a pair of which exactly one side accepts. -/
def pairSearch (left right : Dfa α) : Search α (Option Nat × Option Nat) :=
  (pairGraph left right).explore
    (fun pair => left.acceptsAt pair.1 != right.acceptsAt pair.2)
    ((left.automaton.size + 1) * (right.automaton.size + 1))
    [(some left.initial, some right.initial)]

/-- The least word over the alphabet of `left` that exactly one of the automata accepts. -/
def distinguishingWord? (left right : Dfa α) : Option (List α) :=
  (pairSearch left right).queue.head?.map Visit.word

/-- Whether the automata accept the same words over the alphabet of `left`. -/
def isEquivalent (left right : Dfa α) : Bool :=
  (distinguishingWord? left right).isNone

end WordAutomata.Dfa
