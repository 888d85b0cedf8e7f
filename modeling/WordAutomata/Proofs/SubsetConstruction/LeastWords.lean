import WordAutomata.Proofs.Run.Paths
import WordAutomata.Proofs.Run.Viewed
import WordAutomata.Proofs.SubsetConstruction.Numbering

/-!
# Compiled states are numbered by their least words

Every state of a compiled automaton is reached by some word, and the least of
these words is the one that the search has recorded with the state.  Since the
recorded words are in strict length-lexicographic order, the number of a state
is the rank of its least word among the least words of all states.  This also
holds of the state of the empty set, which is never expanded.
-/

namespace WordAutomata

variable {α : Type} [DecidableEq α]

/-- The run on the word ends in the state, and the run on no word before it does. -/
structure Dfa.IsLeastWordTo (dfa : Dfa α) (state : Nat) (word : List α) : Prop where
  reached : ∃ outcome, dfa.run word = .ok outcome ∧ outcome.reached = state
  least : ∀ other outcome, dfa.run other = .ok outcome → outcome.reached = state →
    NotAfter dfa.automaton.alphabet.Before word other

/-- A state has at most one least word. -/
theorem Dfa.IsLeastWordTo.unique {dfa : Dfa α} {state : Nat} {first second : List α}
    (left : dfa.IsLeastWordTo state first) (right : dfa.IsLeastWordTo state second) :
    first = second := by
  rcases left.reached with ⟨_, ran, reached⟩
  rcases right.reached with ⟨_, ran', reached'⟩
  exact (left.least second _ ran' reached').antisymm (right.least first _ ran reached)

/-- No word is before the empty one, which leads to the initial state. -/
theorem Dfa.isLeastWordTo_initial (dfa : Dfa α) : dfa.IsLeastWordTo dfa.initial [] where
  reached := (dfa.exists_run_reaching_iff [] dfa.initial).2 rfl
  least := by
    intro other _ _ _
    cases other with
    | nil => exact Or.inl rfl
    | cons first rest => exact Or.inr (.of_length_lt (Nat.succ_pos rest.length))

namespace Automaton

variable {automaton : Automaton α}

/-- The words that lead to a state are those after which its set is active. -/
theorem WellFormed.stateAfter_subsetAutomaton_iff (wellFormed : automaton.WellFormed)
    (word : List α) (state : Nat) :
    automaton.subsetAutomaton.stateAfter word = some state ↔
      automaton.alphabet.IsWord word ∧
        automaton.subsetAutomaton.subsetOf? state = some (automaton.active word) := by
  constructor
  · intro reached
    have isWord : automaton.alphabet.IsWord word := Dfa.isWord_of_stateAfter reached
    rcases wellFormed.exists_stateAfter_subsetAutomaton isWord with ⟨other, reached', stands⟩
    rw [reached, Option.some.injEq] at reached'
    exact ⟨isWord, reached' ▸ stands⟩
  · rintro ⟨isWord, stands⟩
    rcases wellFormed.exists_stateAfter_subsetAutomaton isWord with ⟨other, reached, stands'⟩
    rwa [wellFormed.subsetOf?_injective stands stands']

/-- The least word to a state is the one that the search has recorded with it. -/
theorem WellFormed.isLeastWordTo_iff (wellFormed : automaton.WellFormed) (state : Nat)
    (word : List α) :
    automaton.subsetAutomaton.IsLeastWordTo state word ↔
      automaton.stateWords[state]? = some word := by
  -- First the recorded word is least; there is only one such word.
  have recorded : ∀ {recorded : List α}, automaton.stateWords[state]? = some recorded →
      automaton.subsetAutomaton.IsLeastWordTo state recorded := by
    intro recorded located
    have least := (wellFormed.mem_stateWords_iff recorded).1 (List.mem_of_getElem? located)
    have stands : automaton.subsetAutomaton.subsetOf? state =
        some (automaton.active recorded) := by
      rw [wellFormed.subsetOf?_subsetAutomaton_eq, located]
      rfl
    constructor
    · apply (Dfa.exists_run_reaching_iff _ _ _).2
      exact (wellFormed.stateAfter_subsetAutomaton_iff recorded state).2 ⟨least.1, stands⟩
    · intro other outcome ran reached
      have leads := (Dfa.exists_run_reaching_iff _ _ _).1 ⟨outcome, ran, reached⟩
      rcases (wellFormed.stateAfter_subsetAutomaton_iff other state).1 leads with
        ⟨isWord, stands'⟩
      rw [stands, Option.some.injEq] at stands'
      exact least.2 other isWord stands'.symm
  constructor
  · intro leastTo
    have reached := (Dfa.exists_run_reaching_iff _ _ _).1 leastTo.reached
    have stands := ((wellFormed.stateAfter_subsetAutomaton_iff word state).1 reached).2
    have present := (automaton.exists_subsetOf?_iff state).1 ⟨_, stands⟩
    rcases wellFormed.exists_stateWord present with ⟨other, located, _, _⟩
    rw [leastTo.unique (recorded located), located]
  · exact recorded

/--
Every state of a compiled automaton has a least word, and the states are
numbered in the strict length-lexicographic order of these words, with the
symbols ordered as the alphabet declares them.  The first state has the empty
word.
-/
theorem determinize_numbers_by_leastWords (automaton : Automaton α)
    (wellFormed : automaton.WellFormed) (something : automaton.initial ≠ ∅) :
    ∃ dfa, automaton.determinize = .ok dfa ∧
      dfa.automaton.alphabet = automaton.alphabet ∧
      (∀ state < dfa.automaton.size, ∃! word, dfa.IsLeastWordTo state word) ∧
      (∀ first second word word', first < second → dfa.IsLeastWordTo first word →
        dfa.IsLeastWordTo second word' →
          List.Shortlex automaton.alphabet.Before word word') ∧
      dfa.IsLeastWordTo 0 [] := by
  refine ⟨automaton.subsetAutomaton, automaton.determinize_of_initial_ne_empty something,
    automaton.alphabet_subsetAutomaton, ?_, ?_, automaton.subsetAutomaton.isLeastWordTo_initial⟩
  · intro state present
    rcases wellFormed.exists_stateWord present with ⟨word, located, _, _⟩
    have leastTo := (wellFormed.isLeastWordTo_iff state word).2 located
    exact ⟨word, leastTo, fun _ other => other.unique leastTo⟩
  · intro first second word word' earlier leastTo leastTo'
    have located := (wellFormed.isLeastWordTo_iff first word).1 leastTo
    have located' := (wellFormed.isLeastWordTo_iff second word').1 leastTo'
    rcases List.getElem?_eq_some_iff.1 located with ⟨within, rfl⟩
    rcases List.getElem?_eq_some_iff.1 located' with ⟨within', rfl⟩
    exact List.pairwise_iff_getElem.1 wellFormed.pairwise_stateWords first second within within'
      earlier

/-- The set of the last state alone is met before the empty set, with a shorter word. -/
theorem determinize_numbers_by_leastWords_silentCycle :
    silentCycle.WellFormed ∧ silentCycle.initial ≠ ∅ ∧
      ∃ dfa, silentCycle.determinize = .ok dfa ∧ dfa.automaton.size = 3 ∧
        ∃ word word', dfa.IsLeastWordTo 1 word ∧ dfa.IsLeastWordTo 2 word' ∧
          List.Shortlex silentCycle.alphabet.Before word word' := by
  have wellFormed : silentCycle.WellFormed := by decide
  have something : silentCycle.initial ≠ ∅ := by decide
  rcases determinize_numbers_by_leastWords silentCycle wellFormed something with
    ⟨dfa, compiled, _, exists_least, ordered, _⟩
  have size : dfa.automaton.size = 3 := by
    have computed : silentCycle.determinize.map (fun dfa => dfa.automaton.size) = .ok 3 := by
      decide +kernel
    rw [compiled] at computed
    exact Except.ok.inj computed
  rcases exists_least 1 (by omega) with ⟨word, leastTo, _⟩
  rcases exists_least 2 (by omega) with ⟨word', leastTo', _⟩
  exact ⟨wellFormed, something, dfa, compiled, size, word, word', leastTo, leastTo',
    ordered 1 2 word word' (by omega) leastTo leastTo'⟩

end Automaton

end WordAutomata
