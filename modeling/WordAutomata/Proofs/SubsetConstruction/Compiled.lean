import WordAutomata.Proofs.Run.Deterministic
import WordAutomata.Proofs.SubsetConstruction.Search

/-!
# The subset automaton

The states of the subset automaton are the places of the sets that the search
has met.  This file states its look-ups through the sets that its states stand
for: a symbol leads to the state of the set that is active after the symbol,
and a state is accepting if its set has an accepting member.  Hence a word over
the alphabet leads to the state of the set that is active after the word.
-/

namespace WordAutomata.Automaton

variable {α : Type} [DecidableEq α] {automaton : Automaton α}

/-- The deterministic automaton of the sets that are active after some word. -/
def subsetAutomaton (automaton : Automaton α) : Dfa α :=
  automaton.compiled automaton.subsetSearch

theorem determinize_of_initial_eq_empty (automaton : Automaton α)
    (nothing : automaton.initial = ∅) :
    automaton.determinize = .error .noInitialState := by
  rw [determinize, if_pos ((StateSet.isEmpty_iff _).2 nothing)]

theorem determinize_of_initial_ne_empty (automaton : Automaton α)
    (something : automaton.initial ≠ ∅) :
    automaton.determinize = .ok automaton.subsetAutomaton := by
  have notEmpty : ¬ automaton.initial.isEmpty = true := by
    rw [StateSet.isEmpty_iff]
    exact something
  rw [determinize, if_neg notEmpty]
  rfl

theorem alphabet_subsetAutomaton (automaton : Automaton α) :
    automaton.subsetAutomaton.automaton.alphabet = automaton.alphabet :=
  rfl

/-- The first state is the only initial one. -/
theorem initial_subsetAutomaton (automaton : Automaton α) :
    automaton.subsetAutomaton.initial = 0 ∧
      automaton.subsetAutomaton.automaton.initial = .singleton 0 :=
  ⟨rfl, rfl⟩

theorem subsetOf?_subsetAutomaton (automaton : Automaton α) (state : Nat) :
    automaton.subsetAutomaton.subsetOf? state = automaton.subsetSearch.nodes[state]? :=
  rfl

theorem size_subsetAutomaton (automaton : Automaton α) :
    automaton.subsetAutomaton.automaton.size = automaton.subsetSearch.nodes.length := by
  simp [subsetAutomaton, compiled, length_distinctNames]

theorem exists_subsetOf?_iff (automaton : Automaton α) (state : Nat) :
    (∃ subset, automaton.subsetAutomaton.subsetOf? state = some subset) ↔
      state < automaton.subsetAutomaton.automaton.size := by
  rw [size_subsetAutomaton, subsetOf?_subsetAutomaton]
  constructor
  · rintro ⟨subset, located⟩
    exact (List.getElem?_eq_some_iff.1 located).1
  · intro within
    exact ⟨_, List.getElem?_eq_getElem within⟩

theorem exists_state_iff_mem_subsets (automaton : Automaton α) (subset : StateSet) :
    (∃ state, automaton.subsetAutomaton.subsetOf? state = some subset) ↔
      subset ∈ automaton.subsetSearch.nodes := by
  simp only [subsetOf?_subsetAutomaton]
  exact List.mem_iff_getElem?.symm

/-- Different states stand for different sets. -/
theorem WellFormed.subsetOf?_injective (wellFormed : automaton.WellFormed) {first second : Nat}
    {subset : StateSet}
    (left : automaton.subsetAutomaton.subsetOf? first = some subset)
    (right : automaton.subsetAutomaton.subsetOf? second = some subset) :
    first = second := by
  rw [subsetOf?_subsetAutomaton] at left right
  have within := (List.getElem?_eq_some_iff.1 left).1
  exact (List.getElem?_inj within wellFormed.nodup_subsets).1 (left.trans right.symm)

theorem targets_epsilon_subsetAutomaton (automaton : Automaton α) (state : Nat) :
    automaton.subsetAutomaton.automaton.targets state .epsilon = ∅ := by
  simp [subsetAutomaton, compiled, targets_tabulate]

/-- A symbol leads to the state of the set that is active after the symbol. -/
theorem WellFormed.exists_targets_subsetAutomaton (wellFormed : automaton.WellFormed)
    {state : Nat} {subset : StateSet}
    (stands : automaton.subsetAutomaton.subsetOf? state = some subset) {value : α}
    (known : value ∈ automaton.alphabet.symbols) :
    ∃ next,
      automaton.subsetAutomaton.automaton.targets state (.symbol value) = .singleton next ∧
        automaton.subsetAutomaton.subsetOf? next = some (automaton.read subset value) := by
  rw [subsetOf?_subsetAutomaton] at stands
  have within := (List.getElem?_eq_some_iff.1 stands).1
  have met := wellFormed.read_mem_subsets (List.mem_of_getElem? stands) known
  refine ⟨automaton.subsetSearch.nodes.idxOf (automaton.read subset value), ?_, ?_⟩
  · have successor := wellFormed.subsetSuccessor_eq (List.mem_of_getElem? stands) known
    have labelled : Label.symbol value ∈ automaton.alphabet.labels := by
      simpa [Alphabet.labels] using known
    have named : state < (distinctNames
        (automaton.subsetSearch.nodes.map automaton.subsetName)).length := by
      rwa [length_distinctNames, List.length_map]
    unfold subsetAutomaton compiled
    rw [targets_tabulate, if_pos ⟨named, labelled⟩]
    simp only [stands, successor]
  · rw [subsetOf?_subsetAutomaton]
    exact List.getElem?_idxOf met

theorem WellFormed.successor?_subsetAutomaton (wellFormed : automaton.WellFormed)
    {state : Nat} {subset : StateSet}
    (stands : automaton.subsetAutomaton.subsetOf? state = some subset) {value : α}
    (known : value ∈ automaton.alphabet.symbols) :
    ∃ next, automaton.subsetAutomaton.successor? state value = some next ∧
      automaton.subsetAutomaton.subsetOf? next = some (automaton.read subset value) := by
  rcases wellFormed.exists_targets_subsetAutomaton stands known with ⟨next, targets, located⟩
  refine ⟨next, ?_, located⟩
  rw [Dfa.successor?, targets]
  rfl

/-- A state is accepting if its set has an accepting member. -/
theorem mem_accepting_subsetAutomaton (automaton : Automaton α) {state : Nat}
    {subset : StateSet} (stands : automaton.subsetAutomaton.subsetOf? state = some subset) :
    state ∈ automaton.subsetAutomaton.automaton.accepting ↔
      subset.intersects automaton.accepting = true := by
  rw [subsetOf?_subsetAutomaton] at stands
  change state ∈ StateSet.ofList _ ↔ _
  rw [StateSet.mem_ofList]
  constructor
  · intro member
    rcases List.mem_map.1 member with ⟨⟨other, place⟩, kept, rfl⟩
    rcases List.mem_filter.1 kept with ⟨listed, accepting⟩
    have located := List.mk_mem_zipIdx_iff_getElem?.1 listed
    rw [stands, Option.some.injEq] at located
    rw [located]
    exact accepting
  · intro accepting
    have listed := List.mk_mem_zipIdx_iff_getElem?.2 stands
    exact List.mem_map.2 ⟨(subset, state), List.mem_filter.2 ⟨listed, accepting⟩, rfl⟩

/-- A word over the alphabet leads to the state of the set that is active after the word. -/
theorem WellFormed.exists_stateAfter_subsetAutomaton (wellFormed : automaton.WellFormed)
    {word : List α} (isWord : automaton.alphabet.IsWord word) :
    ∃ state, automaton.subsetAutomaton.stateAfter word = some state ∧
      automaton.subsetAutomaton.subsetOf? state = some (automaton.active word) := by
  induction word using List.reverseRecOn with
  | nil => exact ⟨0, rfl, wellFormed.subsets_zero⟩
  | append_singleton word last inductionHypothesis =>
      rcases (automaton.alphabet.isWord_append_singleton word last).1 isWord with
        ⟨isWord, known⟩
      rcases inductionHypothesis isWord with ⟨state, reached, stands⟩
      rcases wellFormed.successor?_subsetAutomaton stands known with ⟨next, found, stands'⟩
      refine ⟨next, ?_, ?_⟩
      · rw [Dfa.stateAfter_append_singleton, reached]
        exact found
      · rw [active_append_singleton]
        exact stands'

end WordAutomata.Automaton
