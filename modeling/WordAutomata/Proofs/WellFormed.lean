import WordAutomata.Dfa.Basic

/-!
# Well-formed automata

An automaton is well-formed if its states have different names, every row has
one entry for each symbol, and all states that it refers to exist.  A
deterministic automaton has one initial state besides, no edge that reads
nothing, and at most one edge for each state and symbol; if it remembers sets
of states then there is one set for each state, and no edge is missing.

These are the promises that every way of building an automaton keeps.  Both
predicates can be decided.
-/

namespace WordAutomata

variable {α : Type} [DecidableEq α]

namespace Automaton

/-! ## Edges and targets -/

theorem targets_eq_empty_of_size_le (automaton : Automaton α) {state : Nat} (label : Label α)
    (missing : automaton.size ≤ state) :
    automaton.targets state label = ∅ := by
  have absent : automaton.states[state]? = none := List.getElem?_eq_none missing
  simp [targets, absent]

theorem lt_size_of_mem_targets {automaton : Automaton α} {state target : Nat} {label : Label α}
    (member : target ∈ automaton.targets state label) :
    state < automaton.size := by
  rcases Nat.lt_or_ge state automaton.size with present | missing
  · exact present
  · rw [automaton.targets_eq_empty_of_size_le label missing] at member
    exact absurd member (StateSet.not_mem_empty target)

/-- A look-up by the number of an existing state finds the edges of this state. -/
theorem epsilonTargets?_of_lt {automaton : Automaton α} {state : Nat}
    (present : state < automaton.size) :
    automaton.epsilonTargets? state = some (automaton.targets state .epsilon) :=
  if_pos present

theorem mem_targets_epsilon_iff (automaton : Automaton α) (source target : Nat) :
    target ∈ automaton.targets source .epsilon ↔
      source < automaton.size ∧
        ∃ targets, automaton.epsilonTargets? source = some targets ∧ target ∈ targets := by
  constructor
  · intro member
    have present := lt_size_of_mem_targets member
    exact ⟨present, _, epsilonTargets?_of_lt present, member⟩
  · rintro ⟨present, targets, looked, member⟩
    rw [epsilonTargets?_of_lt present, Option.some.injEq] at looked
    rwa [looked]

/-- A symbol outside of the alphabet leads nowhere. -/
theorem targets_eq_empty_of_not_mem (automaton : Automaton α) (state : Nat) {value : α}
    (unknown : value ∉ automaton.alphabet.symbols) :
    automaton.targets state (.symbol value) = ∅ := by
  have unplaced := (automaton.alphabet.position?_eq_none_iff value).2 unknown
  cases located : automaton.states[state]? with
  | none => simp [targets, located]
  | some found => simp [targets, located, State.targets, unplaced]

theorem mem_labels_of_mem_targets {automaton : Automaton α} {state target : Nat}
    {label : Label α} (member : target ∈ automaton.targets state label) :
    label ∈ automaton.alphabet.labels := by
  rw [Alphabet.mem_labels]
  rintro value rfl
  by_cases known : value ∈ automaton.alphabet.symbols
  · exact known
  · rw [automaton.targets_eq_empty_of_not_mem state known] at member
    exact absurd member (StateSet.not_mem_empty target)

/-- The listed edges are exactly those that the look-up of targets gives. -/
theorem mem_edges_iff (automaton : Automaton α) (edge : Edge α) :
    edge ∈ automaton.edges ↔ edge.target ∈ automaton.targets edge.source edge.label := by
  constructor
  · intro listed
    rcases List.mem_flatMap.1 listed with ⟨source, _, listed⟩
    rcases List.mem_flatMap.1 listed with ⟨label, _, listed⟩
    rcases List.mem_map.1 listed with ⟨target, member, rfl⟩
    exact member
  · intro member
    have source := lt_size_of_mem_targets member
    refine List.mem_flatMap.2 ⟨edge.source, List.mem_range.2 source, ?_⟩
    refine List.mem_flatMap.2 ⟨edge.label, mem_labels_of_mem_targets member, ?_⟩
    exact List.mem_map.2 ⟨edge.target, member, rfl⟩

/-- Automata of one size and alphabet whose look-ups are equal have equal lists of edges. -/
theorem edges_eq_of_targets_eq {left right : Automaton α}
    (alphabet : left.alphabet = right.alphabet) (size : left.size = right.size)
    (targets : ∀ state label, left.targets state label = right.targets state label) :
    left.edges = right.edges := by
  unfold edges ids
  rw [alphabet, size]
  simp only [targets]

/-! ## Well-formed automata -/

/-- What every way of building an automaton promises. -/
structure WellFormed (automaton : Automaton α) : Prop where
  names_nodup : automaton.names.Nodup
  moves_length : ∀ state ∈ automaton.states, state.moves.length = automaton.alphabet.size
  edges_lt : ∀ edge ∈ automaton.edges, edge.target < automaton.size
  initial_lt : ∀ state ∈ automaton.initial.members, state < automaton.size
  accepting_lt : ∀ state ∈ automaton.accepting.members, state < automaton.size

theorem wellFormed_iff (automaton : Automaton α) :
    automaton.WellFormed ↔
      automaton.names.Nodup ∧
        (∀ state ∈ automaton.states, state.moves.length = automaton.alphabet.size) ∧
        (∀ edge ∈ automaton.edges, edge.target < automaton.size) ∧
        (∀ state ∈ automaton.initial.members, state < automaton.size) ∧
        ∀ state ∈ automaton.accepting.members, state < automaton.size := by
  constructor
  · intro wellFormed
    exact ⟨wellFormed.names_nodup, wellFormed.moves_length, wellFormed.edges_lt,
      wellFormed.initial_lt, wellFormed.accepting_lt⟩
  · rintro ⟨names, moves, edges, initial, accepting⟩
    exact ⟨names, moves, edges, initial, accepting⟩

instance (automaton : Automaton α) : Decidable automaton.WellFormed :=
  decidable_of_iff _ automaton.wellFormed_iff.symm

theorem WellFormed.target_lt {automaton : Automaton α} (wellFormed : automaton.WellFormed)
    {state target : Nat} {label : Label α} (member : target ∈ automaton.targets state label) :
    target < automaton.size :=
  wellFormed.edges_lt ⟨state, label, target⟩ ((automaton.mem_edges_iff _).2 member)

theorem WellFormed.edge_lt {automaton : Automaton α} (wellFormed : automaton.WellFormed)
    {edge : Edge α} (listed : edge ∈ automaton.edges) :
    edge.source < automaton.size ∧ edge.target < automaton.size :=
  ⟨lt_size_of_mem_targets ((automaton.mem_edges_iff edge).1 listed),
    wellFormed.edges_lt edge listed⟩

end Automaton

namespace Dfa

theorem isTotal_iff (dfa : Dfa α) :
    dfa.isTotal = true ↔
      ∀ state < dfa.automaton.size, ∀ value ∈ dfa.automaton.alphabet.symbols,
        ∃ target, dfa.successor? state value = some target := by
  simp [isTotal, Automaton.ids, Option.isSome_iff_exists]

/-- What every way of building a deterministic automaton promises. -/
structure WellFormed (dfa : Dfa α) : Prop where
  automaton : dfa.automaton.WellFormed
  initial_eq : dfa.automaton.initial = .singleton dfa.initial
  edges_reading : ∀ edge ∈ dfa.automaton.edges, edge.label ≠ .epsilon
  targets_size_le : ∀ state ∈ dfa.automaton.ids, ∀ value ∈ dfa.automaton.alphabet.symbols,
    (dfa.automaton.targets state (.symbol value)).size ≤ 1
  subsets_total : ∀ subsets ∈ dfa.subsets,
    subsets.length = dfa.automaton.size ∧ dfa.isTotal = true

theorem wellFormed_iff (dfa : Dfa α) :
    dfa.WellFormed ↔
      dfa.automaton.WellFormed ∧
        dfa.automaton.initial = .singleton dfa.initial ∧
        (∀ edge ∈ dfa.automaton.edges, edge.label ≠ .epsilon) ∧
        (∀ state ∈ dfa.automaton.ids, ∀ value ∈ dfa.automaton.alphabet.symbols,
          (dfa.automaton.targets state (.symbol value)).size ≤ 1) ∧
        ∀ subsets ∈ dfa.subsets,
          subsets.length = dfa.automaton.size ∧ dfa.isTotal = true := by
  constructor
  · intro wellFormed
    exact ⟨wellFormed.automaton, wellFormed.initial_eq, wellFormed.edges_reading,
      wellFormed.targets_size_le, wellFormed.subsets_total⟩
  · rintro ⟨automaton, initial, reading, single, total⟩
    exact ⟨automaton, initial, reading, single, total⟩

instance (dfa : Dfa α) : Decidable dfa.WellFormed :=
  decidable_of_iff _ dfa.wellFormed_iff.symm

theorem WellFormed.initial_lt {dfa : Dfa α} (wellFormed : dfa.WellFormed) :
    dfa.initial < dfa.automaton.size := by
  apply wellFormed.automaton.initial_lt
  rw [wellFormed.initial_eq]
  exact List.mem_singleton_self _

theorem mem_targets_of_successor? {dfa : Dfa α} {state target : Nat} {value : α}
    (found : dfa.successor? state value = some target) :
    target ∈ dfa.automaton.targets state (.symbol value) :=
  List.mem_of_head? found

theorem WellFormed.successor?_lt {dfa : Dfa α} (wellFormed : dfa.WellFormed)
    {state target : Nat} {value : α} (found : dfa.successor? state value = some target) :
    target < dfa.automaton.size :=
  wellFormed.automaton.target_lt (mem_targets_of_successor? found)

/-- No edge leaves a state that does not exist. -/
theorem successor?_eq_none_of_size_le (dfa : Dfa α) {state : Nat} (value : α)
    (missing : dfa.automaton.size ≤ state) :
    dfa.successor? state value = none := by
  rw [successor?, dfa.automaton.targets_eq_empty_of_size_le _ missing]
  rfl

/-- A symbol outside of the alphabet has no successor. -/
theorem successor?_eq_none_of_not_mem (dfa : Dfa α) (state : Nat) {value : α}
    (unknown : value ∉ dfa.automaton.alphabet.symbols) :
    dfa.successor? state value = none := by
  rw [successor?, dfa.automaton.targets_eq_empty_of_not_mem state unknown]
  rfl

end Dfa

end WordAutomata
