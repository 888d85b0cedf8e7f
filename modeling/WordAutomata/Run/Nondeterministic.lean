import WordAutomata.Automaton.Closure
import WordAutomata.Run.Engine

/-!
# Running nondeterministic automata

The situation of a nondeterministic automaton is the set of all states that it
could be in.  If no active state has an edge for a symbol then the set becomes
empty and stays so, which rejects but is not a failure.  Only a symbol outside
of the alphabet makes a run fail.
-/

namespace WordAutomata.Automaton

variable {α : Type} [DecidableEq α]

/-- How an automaton reads symbols when it is in several states at a time. -/
def engine (automaton : Automaton α) : Engine α StateSet where
  start := automaton.start
  read position active value :=
    if value ∈ automaton.alphabet.symbols then
      .ok (automaton.read active value)
    else
      .error (.symbolNotInAlphabet value position)
  accepts active := active.intersects automaton.accepting

/-- Runs a word from the closure of the initial states. -/
def run (automaton : Automaton α) (word : List α) : Except (RunError α) (Outcome StateSet) :=
  automaton.engine.run word

def decides (automaton : Automaton α) (word : List α) : Except (RunError α) Bool :=
  automaton.engine.decides word

end WordAutomata.Automaton
