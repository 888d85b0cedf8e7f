import Mathlib.Data.List.Sublists
import Mathlib.Data.List.Sort
import WordAutomata.Proofs.Lists
import WordAutomata.Proofs.Run.Nondeterministic
import WordAutomata.SubsetConstruction

/-!
# The search for active sets

The search of the subset construction meets each set of states that is active
after some word over the alphabet, and no other set.  There are at most two to
the power of the number of states such sets, so the search always comes to its
end.  What it has recorded tells where a symbol leads from each of them, also
from the empty set, which is not expanded.
-/

namespace WordAutomata

namespace StateSet

/-- All sets whose members are below a bound. -/
def below (bound : Nat) : List StateSet :=
  (List.range bound).sublists.map .ofList

theorem length_below (bound : Nat) : (below bound).length = Nat.pow 2 bound := by
  simp [below, List.length_sublists]

theorem mem_below {set : StateSet} {bound : Nat} (within : ∀ state, state ∈ set → state < bound) :
    set ∈ below bound := by
  refine List.mem_map.2 ⟨set.members, List.mem_sublists.2 ?_, ?_⟩
  · have contained : set.members ⊆ List.range bound :=
      fun state member => List.mem_range.2 (within state member)
    exact List.sublist_of_subperm_of_pairwise (set.nodup.subperm contained) set.ascending
      List.pairwise_lt_range
  · ext state
    exact mem_ofList set.members state

end StateSet

namespace Automaton

variable {α : Type} [DecidableEq α] {automaton : Automaton α}

theorem mem_edges_subsetGraph (automaton : Automaton α) (subset target : StateSet) (value : α) :
    (value, target) ∈ automaton.subsetGraph.edges subset ↔
      value ∈ automaton.alphabet.symbols ∧ target = automaton.read subset value := by
  constructor
  · intro member
    rcases List.mem_map.1 member with ⟨symbol, known, equality⟩
    rcases Prod.mk.inj equality with ⟨rfl, rfl⟩
    exact ⟨known, rfl⟩
  · rintro ⟨known, rfl⟩
    exact List.mem_map_of_mem known

theorem isLeaf_subsetGraph_iff (automaton : Automaton α) (subset : StateSet) :
    automaton.subsetGraph.isLeaf subset = true ↔ subset = ∅ :=
  subset.isEmpty_iff

/-- The words that the search records lead to the sets that it records with them. -/
theorem active_eq_of_walk (automaton : Automaton α) {word : List α} {subset : StateSet}
    (walk : automaton.subsetGraph.Walk automaton.start word subset) :
    automaton.alphabet.IsWord word ∧ automaton.active word = subset := by
  induction walk with
  | nil => exact ⟨automaton.alphabet.isWord_nil, rfl⟩
  | @snoc middle target word value walk inner edge inductionHypothesis =>
      rcases (automaton.mem_edges_subsetGraph middle target value).1 edge with ⟨known, rfl⟩
      rcases inductionHypothesis with ⟨isWord, rfl⟩
      exact ⟨(automaton.alphabet.isWord_append_singleton word value).2 ⟨isWord, known⟩,
        automaton.active_append_singleton word value⟩

theorem WellFormed.confined_subsetGraph (wellFormed : automaton.WellFormed) :
    automaton.subsetGraph.Confined [automaton.start] (StateSet.below automaton.size) where
  roots_mem := by
    intro root member
    rw [List.mem_singleton.1 member]
    exact StateSet.mem_below fun state => wellFormed.start_lt
  edges_mem := by
    rintro subset _ ⟨value, target⟩ followed
    rw [((automaton.mem_edges_subsetGraph subset target value).1 followed).2]
    exact StateSet.mem_below fun state => wellFormed.read_lt

/-- The search for active sets is never cut off. -/
theorem WellFormed.exists_invariant_subsetSearch (wellFormed : automaton.WellFormed) :
    ∃ finished, Search.Invariant automaton.subsetGraph (fun _ => false) [automaton.start]
      finished automaton.subsetSearch ∧ automaton.subsetSearch.queue = [] := by
  apply Search.exists_complete_explore (List.nodup_singleton _) wellFormed.confined_subsetGraph
  exact Nat.le_of_eq (StateSet.length_below automaton.size)

theorem WellFormed.nodup_subsets (wellFormed : automaton.WellFormed) :
    automaton.subsetSearch.nodes.Nodup := by
  rcases wellFormed.exists_invariant_subsetSearch with ⟨finished, invariant, _⟩
  exact invariant.distinct

/-- The closure of the initial states is the first set that is met. -/
theorem WellFormed.subsets_zero (wellFormed : automaton.WellFormed) :
    automaton.subsetSearch.nodes[0]? = some automaton.start := by
  rcases wellFormed.exists_invariant_subsetSearch with ⟨finished, invariant, _⟩
  rcases invariant.opening with ⟨rest, shape⟩
  rw [Search.nodes, ← shape]
  rfl

theorem WellFormed.read_mem_subsets (wellFormed : automaton.WellFormed) {subset : StateSet}
    (met : subset ∈ automaton.subsetSearch.nodes) {value : α}
    (known : value ∈ automaton.alphabet.symbols) :
    automaton.read subset value ∈ automaton.subsetSearch.nodes := by
  rcases wellFormed.exists_invariant_subsetSearch with ⟨finished, invariant, done⟩
  cases leaf : automaton.subsetGraph.isLeaf subset with
  | false =>
      have edge := (automaton.mem_edges_subsetGraph subset _ value).2 ⟨known, rfl⟩
      exact invariant.mem_nodes_of_edge done met leaf edge
  | true =>
      rw [(automaton.isLeaf_subsetGraph_iff subset).1 leaf] at met ⊢
      rwa [wellFormed.read_empty]

/-- The sets that are met are those that are active after some word over the alphabet. -/
theorem WellFormed.mem_subsets_iff (wellFormed : automaton.WellFormed) (subset : StateSet) :
    subset ∈ automaton.subsetSearch.nodes ↔
      ∃ word, automaton.alphabet.IsWord word ∧ automaton.active word = subset := by
  constructor
  · intro met
    rcases wellFormed.exists_invariant_subsetSearch with ⟨finished, invariant, _⟩
    rcases invariant.reaches met with ⟨root, rooted, word, walk⟩
    rw [List.mem_singleton.1 rooted] at walk
    exact ⟨word, automaton.active_eq_of_walk walk⟩
  · rintro ⟨word, isWord, rfl⟩
    induction word using List.reverseRecOn with
    | nil => exact List.mem_of_getElem? wellFormed.subsets_zero
    | append_singleton word last inductionHypothesis =>
        rcases (automaton.alphabet.isWord_append_singleton word last).1 isWord with
          ⟨isWord, known⟩
        rw [active_append_singleton]
        exact wellFormed.read_mem_subsets (inductionHypothesis isWord) known

/-- What the search has recorded tells where a symbol leads from a set that it has met. -/
theorem WellFormed.subsetSuccessor_eq (wellFormed : automaton.WellFormed) {subset : StateSet}
    (met : subset ∈ automaton.subsetSearch.nodes) {value : α}
    (known : value ∈ automaton.alphabet.symbols) :
    subsetSuccessor automaton.subsetSearch subset value = automaton.read subset value := by
  rcases wellFormed.exists_invariant_subsetSearch with ⟨finished, invariant, done⟩
  rw [subsetSuccessor]
  cases leaf : automaton.subsetGraph.isLeaf subset with
  | false =>
      rcases List.mem_map.1 met with ⟨visit, found, rfl⟩
      have expanded := invariant.mem_finished_of_mem_found done found leaf
      rw [invariant.edgesFrom_eq expanded]
      exact congrArg (Option.getD · visit.node) (lookup_map_pair (automaton.read visit.node) known)
  | true =>
      rw [invariant.edgesFrom_leaf leaf, (automaton.isLeaf_subsetGraph_iff subset).1 leaf,
        wellFormed.read_empty]
      rfl

end Automaton

end WordAutomata
