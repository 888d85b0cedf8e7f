import WordAutomata.Automaton.Closure
import WordAutomata.Dfa.Basic
import WordAutomata.FreshName

/-!
# The subset construction

Any automaton with an initial state can be compiled into a deterministic one
that accepts the same words.  Each state of the result stands for a set of
states of the given automaton: the set that is active after some word.  The
sets are found by a breadth-first search from the closure of the initial
states, so only sets that are really reached become states, and they are
numbered in the order in which they are met.

The result is total.  The empty set becomes a state as well, if it is reached.
It rejects and leads back to itself, so the search does not expand it.
-/

namespace WordAutomata.Automaton

variable {α : Type} [DecidableEq α]

/-- The graph of the sets of states that are closed under silent edges. -/
def subsetGraph (automaton : Automaton α) : Graph α StateSet where
  edges subset :=
    automaton.alphabet.symbols.map fun value => (value, automaton.read subset value)
  isLeaf subset := subset.isEmpty

/-- The search for all sets of states that are active after some word. -/
def subsetSearch (automaton : Automaton α) : Search α StateSet :=
  automaton.subsetGraph.explore (fun _ => false) (Nat.pow 2 automaton.size) [automaton.start]

/-- The name of the state that stands for the empty set. -/
def deadName : String :=
  "∅"

/-- The name of the state that stands for a set, before it is made fresh. -/
def subsetName (automaton : Automaton α) (subset : StateSet) : String :=
  if subset.isEmpty then deadName else automaton.renderStates subset

/--
The set that a symbol leads to from a set that was met in the search.  A set
that was not expanded leads back to itself.
-/
def subsetSuccessor (search : Search α StateSet) (subset : StateSet) (value : α) : StateSet :=
  ((search.edgesFrom subset).lookup value).getD subset

/-- The deterministic automaton whose states stand for the sets that a search has met. -/
def compiled (automaton : Automaton α) (search : Search α StateSet) : Dfa α :=
  let subsets := search.nodes
  { automaton :=
      .tabulate automaton.alphabet (distinctNames (subsets.map automaton.subsetName))
        (fun state label =>
          match label, subsets[state]? with
          | .symbol value, some subset =>
              .singleton (subsets.idxOf (subsetSuccessor search subset value))
          | _, _ => ∅)
        (.singleton 0)
        (.ofList ((subsets.zipIdx.filter fun (subset, _) =>
          subset.intersects automaton.accepting).map Prod.snd))
    initial := 0
    subsets := some subsets }

/--
The deterministic automaton that accepts the same words.  There is none if no
state is initial.
-/
def determinize (automaton : Automaton α) : Except (Malformed α) (Dfa α) :=
  if automaton.initial.isEmpty then
    .error .noInitialState
  else
    .ok (automaton.compiled automaton.subsetSearch)

end WordAutomata.Automaton
