import WordAutomata.Description.Resolve
import WordAutomata.Dfa.Basic
import WordAutomata.SubsetConstruction

/-!
# Machines

A machine is an automaton together with the decision how it is to be run:
deterministically, one state at a time, or nondeterministically, several states
at a time.
-/

namespace WordAutomata

/-- An automaton that is run in one of the two ways. -/
inductive Machine (α : Type) where
  | deterministic (dfa : Dfa α)
  | nondeterministic (nfa : Automaton α)
  deriving DecidableEq

namespace Machine

variable {α : Type}

/-- The automaton of a machine, which can always be run nondeterministically. -/
def automaton : Machine α → Automaton α
  | deterministic dfa => dfa.automaton
  | nondeterministic nfa => nfa

variable [DecidableEq α]

/-- The machine that is run deterministically after the subset construction. -/
def compiled (machine : Machine α) : Except (Malformed α) (Machine α) :=
  machine.automaton.determinize.map .deterministic

end Machine

namespace Description

variable {α : Type} [DecidableEq α]

/-- The described automaton as a deterministic one, or the first flaw. -/
def resolveDfa (description : Description α) : Except (Malformed α) (Dfa α) :=
  match description.resolve with
  | .ok automaton => Dfa.ofAutomaton automaton
  | .error flaw => .error flaw

end Description

end WordAutomata
