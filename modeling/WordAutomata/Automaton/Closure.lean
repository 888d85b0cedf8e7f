import WordAutomata.Automaton.Basic
import WordAutomata.Search

/-!
# Closure under silent edges

The closure of a set of states adds all states that can be reached from it by
edges that read nothing.  It is found by a breadth-first search, so cycles of
silent edges are harmless.  Reading a symbol means to follow the edges with
that symbol and to close the result.
-/

namespace WordAutomata.Automaton

variable {α : Type} [DecidableEq α]

/-- The graph of the edges that read nothing. -/
def silentGraph (automaton : Automaton α) : Graph (Label α) Nat where
  edges state :=
    (automaton.targets state .epsilon).members.map fun target => (.epsilon, target)
  isLeaf _ := false

/-- The search that follows the silent edges from a set of states to the end. -/
def silentSearch (automaton : Automaton α) (states : StateSet) : Search (Label α) Nat :=
  automaton.silentGraph.explore (fun _ => false) (automaton.size + states.size) states.members

/-- All states that can be reached from a set of states by edges that read nothing. -/
def closure (automaton : Automaton α) (states : StateSet) : StateSet :=
  .ofList (automaton.silentSearch states).nodes

/--
The closure as it is found by look-ups; nothing if one of them finds nothing.  A
number without a state has no edges, but its look-up may find the cell of some
state, and what stands there is added.
-/
def closure? (automaton : Automaton α) (states : StateSet) : Option StateSet :=
  (states.members.mapM automaton.epsilonTargets?).map fun found =>
    automaton.closure (states ∪ .ofList (found.flatMap StateSet.members))

/-- The closure of a single state, as it is found by look-ups. -/
def closureOf? (automaton : Automaton α) (state : Nat) : Option StateSet :=
  automaton.closure? (.singleton state)

/-- Where the edges with the given label lead from any state of a set. -/
def move (automaton : Automaton α) (states : StateSet) (label : Label α) : StateSet :=
  .ofList (states.members.flatMap fun state => (automaton.targets state label).members)

/-- The states that can be active after a symbol is read in any state of a set. -/
def read (automaton : Automaton α) (states : StateSet) (value : α) : StateSet :=
  automaton.closure (automaton.move states (.symbol value))

/-- The states that can be active before anything is read. -/
def start (automaton : Automaton α) : StateSet :=
  automaton.closure automaton.initial

theorem mem_move (automaton : Automaton α) (states : StateSet) (label : Label α) (target : Nat) :
    target ∈ automaton.move states label ↔
      ∃ state, state ∈ states ∧ target ∈ automaton.targets state label := by
  rw [move, StateSet.mem_ofList, List.mem_flatMap]
  rfl

/-- Where a label leads from a set can be looked up state by state. -/
theorem ofList_flatMap_targets (automaton : Automaton α) (states : StateSet) (label : Label α) :
    StateSet.ofList
        ((states.members.map (automaton.targets · label)).flatMap StateSet.members) =
      automaton.move states label := by
  rw [move, List.flatMap_map]

end WordAutomata.Automaton
