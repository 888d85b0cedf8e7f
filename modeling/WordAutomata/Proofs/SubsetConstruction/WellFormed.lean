import WordAutomata.Proofs.FreshName
import WordAutomata.Proofs.SubsetConstruction.Compiled

/-!
# Subset automata are well-formed

The names of a subset automaton are made fresh one after the other, so no two
states share one, whatever the states of the given automaton are called.  Every
edge leads to the state of a set that was met, and no edge is missing.
-/

namespace WordAutomata.Automaton

variable {α : Type} [DecidableEq α] {automaton : Automaton α}

theorem names_subsetAutomaton (automaton : Automaton α) :
    automaton.subsetAutomaton.automaton.names =
      distinctNames (automaton.subsetSearch.nodes.map automaton.subsetName) :=
  names_tabulate _ _ _ _ _

theorem lt_size_of_subsetOf? {state : Nat} {subset : StateSet}
    (stands : automaton.subsetAutomaton.subsetOf? state = some subset) :
    state < automaton.subsetAutomaton.automaton.size :=
  (automaton.exists_subsetOf?_iff state).1 ⟨subset, stands⟩

theorem WellFormed.zero_lt_size_subsetAutomaton (wellFormed : automaton.WellFormed) :
    0 < automaton.subsetAutomaton.automaton.size :=
  lt_size_of_subsetOf? wellFormed.subsets_zero

theorem lt_size_of_mem_accepting_subsetAutomaton {state : Nat}
    (member : state ∈ automaton.subsetAutomaton.automaton.accepting) :
    state < automaton.subsetAutomaton.automaton.size := by
  rw [size_subsetAutomaton]
  rcases List.mem_map.1 ((StateSet.mem_ofList _ _).1 member) with ⟨⟨subset, place⟩, kept, rfl⟩
  have listed := List.mem_zipIdx_iff_getElem?.1 (List.mem_of_mem_filter kept)
  exact (List.getElem?_eq_some_iff.1 listed).1

theorem WellFormed.wellFormed_automaton_subsetAutomaton (wellFormed : automaton.WellFormed) :
    automaton.subsetAutomaton.automaton.WellFormed where
  names_nodup := by
    rw [names_subsetAutomaton]
    exact nodup_distinctNames _
  moves_length := by
    intro row member
    rcases List.mem_map.1 member with ⟨_, _, rfl⟩
    exact List.length_map _
  edges_lt := by
    intro edge listed
    rw [mem_edges_iff] at listed
    -- The source stands for a set that was met, so its successors do, too.
    have source := lt_size_of_mem_targets listed
    rcases (automaton.exists_subsetOf?_iff edge.source).2 source with ⟨subset, stands⟩
    cases reads : edge.label with
    | epsilon =>
        rw [reads, targets_epsilon_subsetAutomaton] at listed
        exact absurd listed (StateSet.not_mem_empty edge.target)
    | symbol value =>
        rw [reads] at listed
        have known := (Alphabet.mem_labels _ _).1 (mem_labels_of_mem_targets listed) value rfl
        rcases wellFormed.exists_targets_subsetAutomaton stands known with ⟨next, targets, met⟩
        rw [targets, StateSet.mem_singleton] at listed
        rw [listed]
        exact lt_size_of_subsetOf? met
  initial_lt := by
    intro state member
    rw [List.mem_singleton.1 member]
    exact wellFormed.zero_lt_size_subsetAutomaton
  accepting_lt := fun _ => lt_size_of_mem_accepting_subsetAutomaton

/-- A compiled automaton keeps all promises of deterministic automata, and it is total. -/
theorem WellFormed.wellFormed_subsetAutomaton (wellFormed : automaton.WellFormed) :
    automaton.subsetAutomaton.WellFormed where
  automaton := wellFormed.wellFormed_automaton_subsetAutomaton
  initial_eq := rfl
  edges_reading := by
    intro edge listed silent
    rw [mem_edges_iff, silent, targets_epsilon_subsetAutomaton] at listed
    exact StateSet.not_mem_empty edge.target listed
  targets_size_le := by
    intro state within value known
    rcases (automaton.exists_subsetOf?_iff state).2 (List.mem_range.1 within) with
      ⟨subset, stands⟩
    rcases wellFormed.exists_targets_subsetAutomaton stands known with ⟨next, targets, _⟩
    rw [targets]
    exact Nat.le_refl 1
  subsets_total := by
    intro subsets remembered
    constructor
    · rw [size_subsetAutomaton, ← Option.some.inj remembered]
    · rw [Dfa.isTotal_iff]
      intro state within value known
      rcases (automaton.exists_subsetOf?_iff state).2 within with ⟨subset, stands⟩
      rcases wellFormed.successor?_subsetAutomaton stands known with ⟨next, found, _⟩
      exact ⟨next, found⟩

theorem WellFormed.wellFormed_of_determinize (wellFormed : automaton.WellFormed) {dfa : Dfa α}
    (compiled : automaton.determinize = .ok dfa) :
    dfa.WellFormed := by
  by_cases nothing : automaton.initial = ∅
  · rw [automaton.determinize_of_initial_eq_empty nothing] at compiled
    cases compiled
  · rw [automaton.determinize_of_initial_ne_empty nothing, Except.ok.injEq] at compiled
    rw [← compiled]
    exact wellFormed.wellFormed_subsetAutomaton

end WordAutomata.Automaton
