import WordAutomata.Proofs.LeastWord
import WordAutomata.Proofs.SubsetConstruction.WellFormed

/-!
# How a subset automaton numbers its states

The search for active sets follows the symbols in their declared order.  So it
meets each set with the least word after which the set is active, and the states
of the subset automaton are numbered in the order of these words.

Which words are least depends only on which words lead to the same set.  Hence
two automata over one alphabet that lead the same words to a common set, and
that accept the same words, have subset automata with the same numbering.  This
does not mention how the states of the given automata are numbered, or even how
many there are.
-/

namespace WordAutomata

/--
The automata have the same states under the same numbers.  Only the names of the
states may differ, and the sets that the states stand for.
-/
structure Dfa.SameNumbering {α : Type} [DecidableEq α] (left right : Dfa α) : Prop where
  alphabet_eq : left.automaton.alphabet = right.automaton.alphabet
  size_eq : left.automaton.size = right.automaton.size
  initial_eq : left.initial = right.initial
  initials_eq : left.automaton.initial = right.automaton.initial
  accepting_eq : left.automaton.accepting = right.automaton.accepting
  edges_eq : left.automaton.edges = right.automaton.edges

namespace Automaton

variable {α : Type} [DecidableEq α] {automaton : Automaton α}

/-- The words that the search has recorded with the states, in the order of the states. -/
def stateWords (automaton : Automaton α) : List (List α) :=
  automaton.subsetSearch.found.map Visit.word

/-! ## States and their words -/

theorem edgesOrdered_subsetGraph (automaton : Automaton α) :
    automaton.subsetGraph.EdgesOrdered automaton.alphabet.Before := by
  intro subset
  exact List.pairwise_map.2 automaton.alphabet.pairwise_before

theorem WellFormed.exists_ordered_subsetSearch (wellFormed : automaton.WellFormed) :
    ∃ finished, Search.Invariant automaton.subsetGraph (fun _ => false) [automaton.start]
        finished automaton.subsetSearch ∧
      Search.Ordered automaton.subsetGraph automaton.alphabet.Before finished
        automaton.subsetSearch ∧
      automaton.subsetSearch.queue = [] := by
  rcases wellFormed.exists_invariant_subsetSearch with ⟨_, _, done⟩
  rcases Search.exists_ordered_explore (fun _ => false) (Nat.pow 2 automaton.size)
      automaton.start automaton.edgesOrdered_subsetGraph with ⟨finished, invariant, ordered⟩
  exact ⟨finished, invariant, ordered, done⟩

/--
A walk leads to every active set, with a word that is not after the given one.
It may be a shorter word, as no walk continues from the empty set.
-/
theorem WellFormed.exists_walk_of_isWord (wellFormed : automaton.WellFormed) {word : List α}
    (isWord : automaton.alphabet.IsWord word) :
    ∃ earlier, automaton.subsetGraph.Walk automaton.start earlier (automaton.active word) ∧
      NotAfter automaton.alphabet.Before earlier word := by
  induction word using List.reverseRecOn with
  | nil => exact ⟨[], .nil _, Or.inl rfl⟩
  | append_singleton word last inductionHypothesis =>
      rcases (automaton.alphabet.isWord_append_singleton word last).1 isWord with
        ⟨isWord, known⟩
      rcases inductionHypothesis isWord with ⟨earlier, walk, notAfter⟩
      rw [active_append_singleton]
      cases leaf : automaton.subsetGraph.isLeaf (automaton.active word) with
      | false =>
          have edge := (automaton.mem_edges_subsetGraph (automaton.active word) _ last).2
            ⟨known, rfl⟩
          exact ⟨earlier ++ [last], walk.snoc leaf edge, notAfter.append_singleton last⟩
      | true =>
          have nothing := (automaton.isLeaf_subsetGraph_iff _).1 leaf
          rw [nothing, wellFormed.read_empty, ← nothing]
          exact ⟨earlier, walk,
            Or.inr (notAfter.trans_shortlex (shortlex_append_self word last))⟩

/-- Every set is active after the word that was recorded with it. -/
theorem WellFormed.subsets_eq_map_active (wellFormed : automaton.WellFormed) :
    automaton.subsetSearch.nodes = automaton.stateWords.map automaton.active := by
  rcases wellFormed.exists_invariant_subsetSearch with ⟨finished, invariant, _⟩
  rw [Search.nodes, stateWords, List.map_map]
  apply List.map_congr_left
  intro visit found
  rcases invariant.reached visit found with ⟨root, rooted, walk⟩
  rw [List.mem_singleton.1 rooted] at walk
  exact (automaton.active_eq_of_walk walk).2.symm

theorem WellFormed.pairwise_stateWords (wellFormed : automaton.WellFormed) :
    automaton.stateWords.Pairwise (List.Shortlex automaton.alphabet.Before) := by
  rcases wellFormed.exists_ordered_subsetSearch with ⟨finished, _, ordered, _⟩
  exact List.pairwise_map.2 ordered.sorted

/-- The recorded words are the least ones after which some set is active. -/
theorem WellFormed.mem_stateWords_iff (wellFormed : automaton.WellFormed) (word : List α) :
    word ∈ automaton.stateWords ↔ automaton.alphabet.IsLeastWord automaton.active word := by
  rcases wellFormed.exists_ordered_subsetSearch with ⟨finished, invariant, ordered, done⟩
  -- A visit records a word over the alphabet, and it covers every word of its set.
  have records : ∀ visit ∈ automaton.subsetSearch.found,
      automaton.alphabet.IsWord visit.word ∧ automaton.active visit.word = visit.node := by
    intro visit found
    rcases invariant.reached visit found with ⟨root, rooted, walk⟩
    rw [List.mem_singleton.1 rooted] at walk
    exact automaton.active_eq_of_walk walk
  have covers : ∀ other, automaton.alphabet.IsWord other →
      ∃ visit ∈ automaton.subsetSearch.found, visit.node = automaton.active other ∧
        NotAfter automaton.alphabet.Before visit.word other := by
    intro other isWord
    rcases wellFormed.exists_walk_of_isWord isWord with ⟨earlier, walk, notAfter⟩
    rcases ordered.exists_visit_of_walk invariant done walk with ⟨visit, found, located, least⟩
    exact ⟨visit, found, located, least.trans notAfter⟩
  constructor
  · intro recorded
    rcases List.mem_map.1 recorded with ⟨visit, found, rfl⟩
    refine ⟨(records visit found).1, ?_⟩
    intro other isWord same
    rcases covers other isWord with ⟨visit', found', located, notAfter⟩
    have once : visit' = visit := by
      apply invariant.eq_of_node_eq found' found
      rw [located, same, (records visit found).2]
    rwa [once] at notAfter
  · rintro ⟨isWord, least⟩
    rcases covers word isWord with ⟨visit, found, located, notAfter⟩
    have shared : automaton.active visit.word = automaton.active word := by
      rw [(records visit found).2, located]
    rw [(least visit.word (records visit found).1 shared).antisymm notAfter]
    exact List.mem_map_of_mem found

theorem WellFormed.subsetOf?_subsetAutomaton_eq (wellFormed : automaton.WellFormed)
    (state : Nat) :
    automaton.subsetAutomaton.subsetOf? state =
      automaton.stateWords[state]?.map automaton.active := by
  rw [subsetOf?_subsetAutomaton, wellFormed.subsets_eq_map_active, List.getElem?_map]

theorem size_subsetAutomaton_eq (automaton : Automaton α) :
    automaton.subsetAutomaton.automaton.size = automaton.stateWords.length := by
  rw [size_subsetAutomaton, Search.nodes, stateWords, List.length_map, List.length_map]

/-- Every state has a word, which is over the alphabet and leads to the set of the state. -/
theorem WellFormed.exists_stateWord (wellFormed : automaton.WellFormed) {state : Nat}
    (present : state < automaton.subsetAutomaton.automaton.size) :
    ∃ word, automaton.stateWords[state]? = some word ∧ automaton.alphabet.IsWord word ∧
      automaton.subsetAutomaton.subsetOf? state = some (automaton.active word) := by
  rw [size_subsetAutomaton_eq] at present
  have located := List.getElem?_eq_getElem present
  have least := (wellFormed.mem_stateWords_iff _).1 (List.mem_of_getElem? located)
  refine ⟨_, located, least.1, ?_⟩
  rw [wellFormed.subsetOf?_subsetAutomaton_eq, located]
  rfl

/-! ## Automata with the same numbering -/

section SameNumbering

variable {left right : Automaton α} (leftWellFormed : left.WellFormed)
  (rightWellFormed : right.WellFormed) (alphabet : left.alphabet = right.alphabet)
  (fibres : left.alphabet.SameFibres left.active right.active)

include leftWellFormed rightWellFormed alphabet fibres

/-- The recorded words depend only on which words lead to a common set. -/
theorem stateWords_eq : left.stateWords = right.stateWords := by
  have rightOrdered := rightWellFormed.pairwise_stateWords
  rw [← alphabet] at rightOrdered
  apply eq_of_pairwise_shortlex leftWellFormed.pairwise_stateWords rightOrdered
  intro word
  rw [leftWellFormed.mem_stateWords_iff, rightWellFormed.mem_stateWords_iff, ← alphabet]
  exact fibres.isLeastWord_iff word

theorem size_subsetAutomaton_congr :
    left.subsetAutomaton.automaton.size = right.subsetAutomaton.automaton.size := by
  rw [size_subsetAutomaton_eq, size_subsetAutomaton_eq,
    stateWords_eq leftWellFormed rightWellFormed alphabet fibres]

/-- The words of one state of the first automaton are those of one state of the second. -/
theorem subsetOf?_eq_active_iff (state : Nat) {word : List α} (isWord : left.alphabet.IsWord word) :
    left.subsetAutomaton.subsetOf? state = some (left.active word) ↔
      right.subsetAutomaton.subsetOf? state = some (right.active word) := by
  rw [leftWellFormed.subsetOf?_subsetAutomaton_eq, rightWellFormed.subsetOf?_subsetAutomaton_eq,
    ← stateWords_eq leftWellFormed rightWellFormed alphabet fibres]
  cases located : left.stateWords[state]? with
  | none => simp
  | some stateWord =>
      have least := (leftWellFormed.mem_stateWords_iff _).1 (List.mem_of_getElem? located)
      simpa using fibres stateWord word least.1 isWord

/-- Every state of both automata stands for what is active after one word. -/
theorem exists_common_stateWord {state : Nat}
    (present : state < left.subsetAutomaton.automaton.size) :
    ∃ word, left.alphabet.IsWord word ∧
      left.subsetAutomaton.subsetOf? state = some (left.active word) ∧
      right.subsetAutomaton.subsetOf? state = some (right.active word) := by
  rcases leftWellFormed.exists_stateWord present with ⟨word, _, isWord, stands⟩
  exact ⟨word, isWord, stands,
    (subsetOf?_eq_active_iff leftWellFormed rightWellFormed alphabet fibres state isWord).1 stands⟩

/-- A symbol leads from a state to the same state in both automata. -/
theorem targets_subsetAutomaton_congr (state : Nat) (label : Label α) :
    left.subsetAutomaton.automaton.targets state label =
      right.subsetAutomaton.automaton.targets state label := by
  have sizes := size_subsetAutomaton_congr leftWellFormed rightWellFormed alphabet fibres
  cases label with
  | epsilon => rw [targets_epsilon_subsetAutomaton, targets_epsilon_subsetAutomaton]
  | symbol value =>
      by_cases known : value ∈ left.alphabet.symbols
      · rcases Nat.lt_or_ge state left.subsetAutomaton.automaton.size with present | missing
        · rcases exists_common_stateWord leftWellFormed rightWellFormed alphabet fibres present
            with ⟨word, isWord, stands, stands'⟩
          rcases leftWellFormed.exists_targets_subsetAutomaton stands known with
            ⟨next, targets, met⟩
          rcases rightWellFormed.exists_targets_subsetAutomaton stands' (alphabet ▸ known) with
            ⟨next', targets', met'⟩
          rw [← active_append_singleton] at met met'
          -- Both successors are the state of the word that is one symbol longer.
          have longer := (left.alphabet.isWord_append_singleton word value).2 ⟨isWord, known⟩
          have moved := (subsetOf?_eq_active_iff leftWellFormed rightWellFormed alphabet fibres
            next longer).1 met
          rw [targets, targets', rightWellFormed.subsetOf?_injective moved met']
        · rw [targets_eq_empty_of_size_le _ _ missing,
            targets_eq_empty_of_size_le _ _ (sizes ▸ missing)]
      · have unknown : value ∉ right.alphabet.symbols := alphabet ▸ known
        rw [left.subsetAutomaton.automaton.targets_eq_empty_of_not_mem state known,
          right.subsetAutomaton.automaton.targets_eq_empty_of_not_mem state unknown]

/--
Automata that lead the same words to a common set, and that accept the same
words, are compiled into automata with the same numbering.
-/
theorem sameNumbering_subsetAutomaton
    (verdicts : ∀ word, left.alphabet.IsWord word →
      (left.active word).intersects left.accepting =
        (right.active word).intersects right.accepting) :
    left.subsetAutomaton.SameNumbering right.subsetAutomaton := by
  have sizes := size_subsetAutomaton_congr leftWellFormed rightWellFormed alphabet fibres
  have leftInitial := left.initial_subsetAutomaton
  have rightInitial := right.initial_subsetAutomaton
  refine
    { alphabet_eq := alphabet
      size_eq := sizes
      initial_eq := leftInitial.1.trans rightInitial.1.symm
      initials_eq := leftInitial.2.trans rightInitial.2.symm
      accepting_eq := ?_
      edges_eq := edges_eq_of_targets_eq alphabet sizes
        (targets_subsetAutomaton_congr leftWellFormed rightWellFormed alphabet fibres) }
  ext state
  rcases Nat.lt_or_ge state left.subsetAutomaton.automaton.size with present | missing
  · rcases exists_common_stateWord leftWellFormed rightWellFormed alphabet fibres present with
      ⟨word, isWord, stands, stands'⟩
    rw [left.mem_accepting_subsetAutomaton stands, right.mem_accepting_subsetAutomaton stands',
      verdicts word isWord]
  · constructor
    · intro member
      exact absurd (lt_size_of_mem_accepting_subsetAutomaton member) (Nat.not_lt_of_ge missing)
    · intro member
      rw [sizes] at missing
      exact absurd (lt_size_of_mem_accepting_subsetAutomaton member) (Nat.not_lt_of_ge missing)

end SameNumbering

end Automaton

end WordAutomata
