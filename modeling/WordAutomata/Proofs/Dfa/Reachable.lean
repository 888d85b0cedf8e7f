import WordAutomata.Proofs.Run.Viewed

/-!
# Reachable states

The search through a deterministic automaton follows its edges from the initial
state.  It always comes to its end, and it finds exactly the states to which some
word leads.  The automaton has a gap if some word over the alphabet leads
nowhere, that is, if an edge is missing at a reachable state.
-/

namespace WordAutomata.Dfa

variable {α : Type} [DecidableEq α] {dfa : Dfa α}

/-- Some state that can be reached has no successor on some symbol. -/
def HasReachableGap (dfa : Dfa α) : Prop :=
  ∃ state, state ∈ dfa.reachableStates ∧
    ∃ value ∈ dfa.automaton.alphabet.symbols, dfa.successor? state value = none

theorem mem_edges_graph (dfa : Dfa α) (state target : Nat) (value : α) :
    (value, target) ∈ dfa.graph.edges state ↔ dfa.successor? state value = some target := by
  constructor
  · intro member
    rcases List.mem_filterMap.1 member with ⟨symbol, _, mapped⟩
    rcases Option.map_eq_some_iff.1 mapped with ⟨next, found, same⟩
    rcases Prod.mk.inj same with ⟨rfl, rfl⟩
    exact found
  · intro found
    refine List.mem_filterMap.2 ⟨value, mem_symbols_of_successor? found, ?_⟩
    rw [found]
    rfl

/-- The walks from the initial state are the words that lead somewhere. -/
theorem walk_graph_iff (dfa : Dfa α) (word : List α) (state : Nat) :
    dfa.graph.Walk dfa.initial word state ↔ dfa.stateAfter word = some state := by
  constructor
  · intro walk
    induction walk with
    | nil => rfl
    | snoc walk inner edge inductionHypothesis =>
        rw [stateAfter_append_singleton, inductionHypothesis]
        exact (dfa.mem_edges_graph _ _ _).1 edge
  · intro reached
    induction word using List.reverseRecOn generalizing state with
    | nil =>
        cases reached
        exact .nil _
    | append_singleton word last inductionHypothesis =>
        rw [stateAfter_append_singleton, Option.bind_eq_some_iff] at reached
        rcases reached with ⟨middle, reached, found⟩
        exact (inductionHypothesis middle reached).snoc rfl ((dfa.mem_edges_graph _ _ _).2 found)

theorem WellFormed.confined_graph (wellFormed : dfa.WellFormed) :
    dfa.graph.Confined [dfa.initial] dfa.automaton.ids where
  roots_mem := by
    intro root member
    rw [List.mem_singleton.1 member]
    exact List.mem_range.2 wellFormed.initial_lt
  edges_mem := by
    rintro state _ ⟨value, target⟩ followed
    exact List.mem_range.2 (wellFormed.successor?_lt ((dfa.mem_edges_graph _ _ _).1 followed))

/-- The search finds the states to which some word leads. -/
theorem WellFormed.mem_reachableStates_iff (wellFormed : dfa.WellFormed) (state : Nat) :
    state ∈ dfa.reachableStates ↔ ∃ word, dfa.stateAfter word = some state := by
  have enough : dfa.automaton.ids.length ≤ dfa.automaton.size :=
    Nat.le_of_eq List.length_range
  rcases Search.exists_complete_explore (List.nodup_singleton _) wellFormed.confined_graph enough
    with ⟨finished, invariant, done⟩
  rw [reachableStates, StateSet.mem_ofList, invariant.mem_nodes_iff done]
  constructor
  · rintro ⟨root, rooted, word, walk⟩
    rw [List.mem_singleton.1 rooted] at walk
    exact ⟨word, (dfa.walk_graph_iff word state).1 walk⟩
  · rintro ⟨word, reached⟩
    exact ⟨dfa.initial, List.mem_singleton_self _, word, (dfa.walk_graph_iff word state).2 reached⟩

theorem WellFormed.stateAfter_lt (wellFormed : dfa.WellFormed) {word : List α} {state : Nat}
    (reached : dfa.stateAfter word = some state) :
    state < dfa.automaton.size := by
  cases word using List.reverseRecOn with
  | nil =>
      cases reached
      exact wellFormed.initial_lt
  | append_singleton word last =>
      rw [stateAfter_append_singleton, Option.bind_eq_some_iff] at reached
      rcases reached with ⟨middle, _, found⟩
      exact wellFormed.successor?_lt found

theorem WellFormed.reachableStates_lt (wellFormed : dfa.WellFormed) {state : Nat}
    (reachable : state ∈ dfa.reachableStates) :
    state < dfa.automaton.size := by
  rcases (wellFormed.mem_reachableStates_iff state).1 reachable with ⟨word, reached⟩
  exact wellFormed.stateAfter_lt reached

/-- There are at most as many reachable states as states. -/
theorem WellFormed.size_reachableStates_le (wellFormed : dfa.WellFormed) :
    dfa.reachableStates.size ≤ dfa.automaton.size := by
  have contained : dfa.reachableStates.members ⊆ List.range dfa.automaton.size :=
    fun _ member => List.mem_range.2 (wellFormed.reachableStates_lt member)
  have bounded := (dfa.reachableStates.nodup.subperm contained).length_le
  rwa [List.length_range] at bounded

/-- There are at least as many reachable states as there are words that lead to different ones. -/
theorem WellFormed.length_le_size_reachableStates (wellFormed : dfa.WellFormed)
    {words : List (List α)} (distinct : words.Nodup)
    (lead : ∀ word ∈ words, dfa.stateAfter word ≠ none)
    (apart : ∀ first ∈ words, ∀ second ∈ words,
      dfa.stateAfter first = dfa.stateAfter second → first = second) :
    words.length ≤ dfa.reachableStates.size := by
  have different : (words.map dfa.stateAfter).Nodup := distinct.map_on apart
  have contained : words.map dfa.stateAfter ⊆ dfa.reachableStates.members.map some := by
    intro place member
    rcases List.mem_map.1 member with ⟨word, listed, rfl⟩
    rcases Option.ne_none_iff_exists'.1 (lead word listed) with ⟨state, reached⟩
    rw [reached]
    exact List.mem_map_of_mem ((wellFormed.mem_reachableStates_iff state).2 ⟨word, reached⟩)
  have bounded := (different.subperm contained).length_le
  rwa [List.length_map, List.length_map] at bounded

/-- There are at least as many states as there are words that lead to different states. -/
theorem WellFormed.length_le_size (wellFormed : dfa.WellFormed) {words : List (List α)}
    (distinct : words.Nodup) (lead : ∀ word ∈ words, dfa.stateAfter word ≠ none)
    (apart : ∀ first ∈ words, ∀ second ∈ words,
      dfa.stateAfter first = dfa.stateAfter second → first = second) :
    words.length ≤ dfa.automaton.size :=
  Nat.le_trans (wellFormed.length_le_size_reachableStates distinct lead apart)
    wellFormed.size_reachableStates_le

/-- A gap is there exactly if some word over the alphabet leads nowhere. -/
theorem WellFormed.exists_stateAfter_eq_none_iff (wellFormed : dfa.WellFormed) :
    (∃ word, dfa.automaton.alphabet.IsWord word ∧ dfa.stateAfter word = none) ↔
      dfa.HasReachableGap := by
  constructor
  · rintro ⟨word, isWord, lost⟩
    induction word using List.reverseRecOn with
    | nil => cases lost
    | append_singleton word last inductionHypothesis =>
        rcases (dfa.automaton.alphabet.isWord_append_singleton word last).1 isWord with
          ⟨isWord, known⟩
        -- The word gets lost before its last symbol, or the last symbol meets the gap.
        cases reached : dfa.stateAfter word with
        | none => exact inductionHypothesis isWord reached
        | some state =>
            rw [stateAfter_append_singleton, reached] at lost
            exact ⟨state, (wellFormed.mem_reachableStates_iff state).2 ⟨word, reached⟩, last,
              known, lost⟩
  · rintro ⟨state, reachable, value, known, missing⟩
    rcases (wellFormed.mem_reachableStates_iff state).1 reachable with ⟨word, reached⟩
    refine ⟨word ++ [value], ?_, ?_⟩
    · exact (dfa.automaton.alphabet.isWord_append_singleton word value).2
        ⟨isWord_of_stateAfter reached, known⟩
    · rw [stateAfter_append_singleton, reached]
      exact missing

/-- A total automaton has no gap. -/
theorem WellFormed.not_hasReachableGap (wellFormed : dfa.WellFormed)
    (total : dfa.isTotal = true) :
    ¬ dfa.HasReachableGap := by
  rintro ⟨state, reachable, value, known, missing⟩
  rcases dfa.isTotal_iff.1 total state (wellFormed.reachableStates_lt reachable) value known with
    ⟨target, found⟩
  rw [missing] at found
  cases found

end WordAutomata.Dfa
