import WordAutomata.Proofs.SubsetConstruction.Runs

/-!
# The subset construction builds the reachable sets, each once

A subset automaton has one state for each set that is active after some word
over the alphabet, and no other state.  It is total, has a single initial state
and no silent edges.  The empty set becomes a state only if some active set has
no edge for some symbol, and this state is a rejecting trap.
-/

namespace WordAutomata.Automaton

variable {α : Type} [DecidableEq α]

/--
What it means that a deterministic automaton consists of the active sets of an
automaton.
-/
structure IsSubsetAutomaton (automaton : Automaton α) (dfa : Dfa α) : Prop where
  /-- Both automata read the same symbols. -/
  alphabet_eq : dfa.automaton.alphabet = automaton.alphabet
  /-- Every state stands for a set, and only states do. -/
  stands_iff : ∀ state,
    (∃ subset, dfa.subsetOf? state = some subset) ↔ state < dfa.automaton.size
  /-- No two states stand for the same set. -/
  injective : ∀ first second subset, dfa.subsetOf? first = some subset →
    dfa.subsetOf? second = some subset → first = second
  /-- The sets are those that runs over the alphabet reach. -/
  subset_iff : ∀ subset, (∃ state, dfa.subsetOf? state = some subset) ↔
    ∃ word, automaton.alphabet.IsWord word ∧
      ∃ outcome, automaton.run word = .ok outcome ∧ outcome.reached = subset
  /-- Some run ends in each state. -/
  state_reached : ∀ state, state < dfa.automaton.size →
    ∃ word outcome, dfa.run word = .ok outcome ∧ outcome.reached = state
  /-- No silent edge leaves a set. -/
  silent_closed : ∀ state subset, dfa.subsetOf? state = some subset →
    ∀ source target, source ∈ subset → automaton.SilentStep source target → target ∈ subset
  /-- The only initial state is the first one, which stands for what is active at first. -/
  initial_first : dfa.initial = 0 ∧ dfa.automaton.initial = .singleton 0 ∧
    dfa.subsetOf? 0 = some (automaton.closure automaton.initial)
  /-- Every edge reads a symbol. -/
  reading : ∀ edge ∈ dfa.automaton.edges, edge.label ≠ .epsilon
  /-- A symbol leads from each state to exactly one other: that of the closure of the move. -/
  successor : ∀ state subset, dfa.subsetOf? state = some subset →
    ∀ value ∈ automaton.alphabet.symbols, ∃ next,
      dfa.automaton.targets state (.symbol value) = .singleton next ∧
        dfa.successor? state value = some next ∧
        dfa.subsetOf? next =
          some (automaton.closure (automaton.move subset (.symbol value)))
  /-- A state is accepting if its set meets the accepting states. -/
  accepting_iff : ∀ state subset, dfa.subsetOf? state = some subset →
    (state ∈ dfa.automaton.accepting ↔
      ∃ member, member ∈ subset ∧ member ∈ automaton.accepting)
  /-- The empty set is there exactly if some active set has an empty move. -/
  dead_iff : (∃ state, dfa.subsetOf? state = some ∅) ↔
    ∃ word outcome, automaton.run word = .ok outcome ∧
      ∃ value ∈ automaton.alphabet.symbols,
        automaton.move outcome.reached (.symbol value) = ∅
  /-- The state of the empty set rejects, and every symbol leads back to it. -/
  dead_trap : ∀ state, dfa.subsetOf? state = some ∅ →
    state ∉ dfa.automaton.accepting ∧
      ∀ value ∈ automaton.alphabet.symbols,
        dfa.automaton.targets state (.symbol value) = .singleton state

variable {automaton : Automaton α}

theorem WellFormed.start_ne_empty (wellFormed : automaton.WellFormed)
    (something : automaton.initial ≠ ∅) :
    automaton.start ≠ ∅ := by
  intro nothing
  exact something ((wellFormed.closure_eq_empty_iff automaton.initial).1 nothing)

theorem WellFormed.exists_state_iff_run (wellFormed : automaton.WellFormed) (subset : StateSet) :
    (∃ state, automaton.subsetAutomaton.subsetOf? state = some subset) ↔
      ∃ word, automaton.alphabet.IsWord word ∧
        ∃ outcome, automaton.run word = .ok outcome ∧ outcome.reached = subset := by
  rw [exists_state_iff_mem_subsets, wellFormed.mem_subsets_iff]
  constructor
  · rintro ⟨word, isWord, rfl⟩
    exact ⟨word, isWord, _, (automaton.run_eq_ok_iff word _).2 ⟨isWord, rfl⟩, rfl⟩
  · rintro ⟨word, isWord, outcome, ran, rfl⟩
    rcases (automaton.run_eq_ok_iff word outcome).1 ran with ⟨_, rfl⟩
    exact ⟨word, isWord, rfl⟩

theorem WellFormed.exists_run_to_state (wellFormed : automaton.WellFormed) {state : Nat}
    (within : state < automaton.subsetAutomaton.automaton.size) :
    ∃ word outcome, automaton.subsetAutomaton.run word = .ok outcome ∧
      outcome.reached = state := by
  rcases (automaton.exists_subsetOf?_iff state).2 within with ⟨subset, stands⟩
  have met := (automaton.exists_state_iff_mem_subsets subset).1 ⟨state, stands⟩
  rcases (wellFormed.mem_subsets_iff subset).1 met with ⟨word, isWord, rfl⟩
  rcases wellFormed.run_subsetAutomaton_of_isWord isWord with ⟨reached, stands', ran⟩
  exact ⟨word, _, ran, wellFormed.subsetOf?_injective stands' stands⟩

/-- What is active after a word is closed under silent edges. -/
theorem WellFormed.mem_active_of_silentStep (wellFormed : automaton.WellFormed) {word : List α}
    {source target : Nat} (member : source ∈ automaton.active word)
    (step : automaton.SilentStep source target) :
    target ∈ automaton.active word := by
  cases word using List.reverseRecOn with
  | nil => exact wellFormed.mem_closure_of_silentStep member step
  | append_singleton word last =>
      rw [active_append_singleton] at member ⊢
      exact wellFormed.mem_closure_of_silentStep member step

/-- The empty set is active after some word exactly if some active set has an empty move. -/
theorem WellFormed.exists_dead_iff (wellFormed : automaton.WellFormed)
    (something : automaton.initial ≠ ∅) :
    (∃ state, automaton.subsetAutomaton.subsetOf? state = some ∅) ↔
      ∃ word outcome, automaton.run word = .ok outcome ∧
        ∃ value ∈ automaton.alphabet.symbols,
          automaton.move outcome.reached (.symbol value) = ∅ := by
  rw [exists_state_iff_mem_subsets, wellFormed.mem_subsets_iff]
  constructor
  · rintro ⟨word, isWord, nothing⟩
    cases word using List.reverseRecOn with
    | nil => exact absurd nothing (wellFormed.start_ne_empty something)
    | append_singleton word last =>
        rcases (automaton.alphabet.isWord_append_singleton word last).1 isWord with
          ⟨isWord, known⟩
        rw [active_append_singleton, wellFormed.read_eq_empty_iff] at nothing
        exact ⟨word, _, (automaton.run_eq_ok_iff word _).2 ⟨isWord, rfl⟩, last, known, nothing⟩
  · rintro ⟨word, outcome, ran, value, known, nothing⟩
    rcases (automaton.run_eq_ok_iff word outcome).1 ran with ⟨isWord, rfl⟩
    refine ⟨word ++ [value],
      (automaton.alphabet.isWord_append_singleton word value).2 ⟨isWord, known⟩, ?_⟩
    rw [active_append_singleton, wellFormed.read_eq_empty_iff]
    exact nothing

theorem WellFormed.dead_is_trap (wellFormed : automaton.WellFormed) {state : Nat}
    (stands : automaton.subsetAutomaton.subsetOf? state = some ∅) :
    state ∉ automaton.subsetAutomaton.automaton.accepting ∧
      ∀ value ∈ automaton.alphabet.symbols,
        automaton.subsetAutomaton.automaton.targets state (.symbol value) =
          .singleton state := by
  constructor
  · rw [automaton.mem_accepting_subsetAutomaton stands, StateSet.intersects_iff]
    simp
  · intro value known
    rcases wellFormed.exists_targets_subsetAutomaton stands known with ⟨next, targets, stands'⟩
    rw [wellFormed.read_empty] at stands'
    rw [targets, wellFormed.subsetOf?_injective stands' stands]

/--
Compiling an automaton with an initial state gives the deterministic automaton
of its active sets: each of them is one state, and there are no other states.
-/
theorem determinize_isSubsetAutomaton (automaton : Automaton α)
    (wellFormed : automaton.WellFormed) (something : automaton.initial ≠ ∅) :
    ∃ dfa, automaton.determinize = .ok dfa ∧ automaton.IsSubsetAutomaton dfa := by
  refine ⟨automaton.subsetAutomaton, automaton.determinize_of_initial_ne_empty something, ?_⟩
  refine
    { alphabet_eq := rfl
      stands_iff := automaton.exists_subsetOf?_iff
      injective := fun _ _ _ left right => wellFormed.subsetOf?_injective left right
      subset_iff := wellFormed.exists_state_iff_run
      state_reached := fun _ within => wellFormed.exists_run_to_state within
      silent_closed := ?_
      initial_first := ⟨rfl, rfl, wellFormed.subsets_zero⟩
      reading := ?_
      successor := ?_
      accepting_iff := ?_
      dead_iff := wellFormed.exists_dead_iff something
      dead_trap := fun _ stands => wellFormed.dead_is_trap stands }
  · intro state subset stands source target member step
    have met := (automaton.exists_state_iff_mem_subsets subset).1 ⟨state, stands⟩
    rcases (wellFormed.mem_subsets_iff subset).1 met with ⟨word, _, rfl⟩
    exact wellFormed.mem_active_of_silentStep member step
  · intro edge listed silent
    rw [mem_edges_iff, silent, automaton.targets_epsilon_subsetAutomaton] at listed
    exact StateSet.not_mem_empty _ listed
  · intro state subset stands value known
    rcases wellFormed.exists_targets_subsetAutomaton stands known with ⟨next, targets, stands'⟩
    refine ⟨next, targets, ?_, stands'⟩
    rw [Dfa.successor?, targets]
    rfl
  · intro state subset stands
    rw [automaton.mem_accepting_subsetAutomaton stands, StateSet.intersects_iff]

theorem determinize_isSubsetAutomaton_silentCycle :
    silentCycle.WellFormed ∧ silentCycle.initial ≠ ∅ ∧
      ∃ dfa, silentCycle.determinize = .ok dfa ∧ silentCycle.IsSubsetAutomaton dfa := by
  have wellFormed : silentCycle.WellFormed := by decide
  have something : silentCycle.initial ≠ ∅ := by decide
  exact ⟨wellFormed, something, determinize_isSubsetAutomaton silentCycle wellFormed something⟩

end WordAutomata.Automaton
