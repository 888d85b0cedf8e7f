import WordAutomata.Automaton.Basic
import WordAutomata.Malformed
import WordAutomata.Search

/-!
# Deterministic automata

An automaton is deterministic if it has exactly one initial state, no edge that
reads nothing, and at most one edge for each state and symbol.  A deterministic
automaton may be partial: some state may lack an edge for some symbol.

A deterministic automaton that was compiled from another one remembers for each
of its states which set of states it stands for.
-/

namespace WordAutomata

structure Dfa (α : Type) where
  automaton : Automaton α
  initial : Nat
  /-- The sets that the states stand for, if the automaton was compiled. -/
  subsets : Option (List StateSet)
  deriving DecidableEq

namespace Dfa

variable {α : Type}

/-- The set that a state stands for, if the automaton was compiled and the state exists. -/
def subsetOf? (dfa : Dfa α) (state : Nat) : Option StateSet :=
  dfa.subsets.bind (·[state]?)

variable [DecidableEq α]

/-- The symbols on which a state branches, with the number of its edges. -/
def branchings (automaton : Automaton α) (state : Nat) : List (Malformed α) :=
  automaton.alphabet.symbols.filterMap fun value =>
    let count := (automaton.targets state (.symbol value)).size
    if 1 < count then
      some (.nondeterministic (automaton.nameOf state) value count)
    else
      none

/-- What keeps a state from being deterministic; an edge that reads nothing comes first. -/
def flawsAt (automaton : Automaton α) (state : Nat) : List (Malformed α) :=
  if (automaton.targets state .epsilon).isEmpty then
    branchings automaton state
  else
    .epsilonTransition (automaton.nameOf state) :: branchings automaton state

/--
The automaton as a deterministic one, or the first thing that keeps it from
being one: the initial states come first, and then the states in order.
-/
def ofAutomaton (automaton : Automaton α) : Except (Malformed α) (Dfa α) :=
  match automaton.initial.members with
  | [] => .error .noInitialState
  | [initial] =>
      match automaton.ids.flatMap (flawsAt automaton) with
      | [] => .ok ⟨automaton, initial, none⟩
      | flaw :: _ => .error flaw
  | several => .error (.multipleInitialStates several.length)

/-- The state that a symbol leads to, if there is one. -/
def successor? (dfa : Dfa α) (state : Nat) (value : α) : Option Nat :=
  (dfa.automaton.targets state (.symbol value)).least?

def isTotal (dfa : Dfa α) : Bool :=
  dfa.automaton.ids.all fun state =>
    dfa.automaton.alphabet.symbols.all fun value => (dfa.successor? state value).isSome

def graph (dfa : Dfa α) : Graph α Nat where
  edges state :=
    dfa.automaton.alphabet.symbols.filterMap fun value =>
      (dfa.successor? state value).map fun target => (value, target)
  isLeaf _ := false

/-- The states that can be reached from the initial state. -/
def reachableStates (dfa : Dfa α) : StateSet :=
  .ofList
    (dfa.graph.explore (fun _ => false) dfa.automaton.size [dfa.initial]).nodes

end Dfa

end WordAutomata
