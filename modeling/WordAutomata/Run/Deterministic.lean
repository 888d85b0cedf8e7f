import WordAutomata.Dfa.Basic
import WordAutomata.Run.Engine

/-!
# Running deterministic automata

A deterministic automaton is in one state at a time.  A symbol outside of the
alphabet and a missing edge both make a run fail, and the first of the two is
reported if a symbol is unknown and has no edge.
-/

namespace WordAutomata.Dfa

variable {α : Type} [DecidableEq α]

/-- How a deterministic automaton reads symbols. -/
def engine (dfa : Dfa α) : Engine α Nat where
  start := dfa.initial
  read position state value :=
    if value ∈ dfa.automaton.alphabet.symbols then
      match dfa.successor? state value with
      | some next => .ok next
      | none => .error (.undefinedTransition (dfa.automaton.nameOf state) value position)
    else
      .error (.symbolNotInAlphabet value position)
  accepts := dfa.automaton.isAccepting

def run (dfa : Dfa α) (word : List α) : Except (RunError α) (Outcome Nat) :=
  dfa.engine.run word

def decides (dfa : Dfa α) (word : List α) : Except (RunError α) Bool :=
  dfa.engine.decides word

end WordAutomata.Dfa
