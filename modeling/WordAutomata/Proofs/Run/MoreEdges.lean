import WordAutomata.Proofs.Run.Paths

/-!
# Automata with further edges

An automaton that has the states of another one and at least its edges has at
least its paths.  It therefore reaches whatever the other one reaches, and
accepts every word that the other one accepts.
-/

namespace WordAutomata.Automaton

variable {α : Type} [DecidableEq α]

/-- The second automaton has the same states, and the edges of the first one. -/
structure ExtendedBy (few many : Automaton α) : Prop where
  alphabet_eq : few.alphabet = many.alphabet
  names_eq : few.names = many.names
  initial_eq : few.initial = many.initial
  accepting_eq : few.accepting = many.accepting
  edges_subset : few.edges ⊆ many.edges

theorem Path.of_edges_subset {few many : Automaton α} (subset : few.edges ⊆ many.edges)
    {source target : Nat} {labels : List (Label α)} (path : few.Path source labels target) :
    many.Path source labels target := by
  induction path with
  | nil state => exact .nil state
  | cons listed _ inductionHypothesis => exact .cons (subset listed) inductionHypothesis

theorem ExtendedBy.reaches {few many : Automaton α} (extended : few.ExtendedBy many)
    {word : List α} {state : Nat} (reached : few.Reaches word state) :
    many.Reaches word state := by
  rcases reached with ⟨origin, initial, labels, path, spelled⟩
  exact ⟨origin, extended.initial_eq ▸ initial, labels,
    path.of_edges_subset extended.edges_subset, spelled⟩

/-- The accepted words are the words over the alphabet that reach an accepting state. -/
theorem WellFormed.decides_eq_ok_true_iff {automaton : Automaton α}
    (wellFormed : automaton.WellFormed) (word : List α) :
    automaton.decides word = .ok true ↔
      automaton.alphabet.IsWord word ∧
        ∃ state, automaton.Reaches word state ∧ state ∈ automaton.accepting := by
  by_cases isWord : automaton.alphabet.IsWord word
  · rw [automaton.decides_of_isWord isWord, Except.ok.injEq, StateSet.intersects_iff]
    simp only [wellFormed.mem_active_iff, isWord, true_and]
  · rcases (automaton.alphabet.isWord_or_firstUnknown word).resolve_left isWord with
      ⟨value, position, unknown⟩
    have failed := (automaton.run_eq_error_iff word _).2 ⟨value, position, unknown, rfl⟩
    have undecided : automaton.decides word = .error (.symbolNotInAlphabet value position) := by
      show (automaton.run word).map Outcome.accepted = _
      rw [failed]
      rfl
    simp [undecided, isWord]

/-- Further edges never take an accepted word away. -/
theorem ExtendedBy.accepts {few many : Automaton α} (extended : few.ExtendedBy many)
    (wellFormed : few.WellFormed) (wellFormed' : many.WellFormed) {word : List α}
    (accepted : few.decides word = .ok true) :
    many.decides word = .ok true := by
  rcases (wellFormed.decides_eq_ok_true_iff word).1 accepted with
    ⟨isWord, state, reached, accepting⟩
  rw [extended.alphabet_eq] at isWord
  rw [extended.accepting_eq] at accepting
  exact (wellFormed'.decides_eq_ok_true_iff word).2
    ⟨isWord, state, extended.reaches reached, accepting⟩

end WordAutomata.Automaton
