import WordAutomata.Proofs.Run.Paths
import WordAutomata.Proofs.SubsetConstruction.Compiled

/-!
# The subset construction preserves runs

The subset automaton follows every run of the automaton that it was compiled
from.  Where that run succeeds, the compiled one takes as many transitions,
gives the same verdict and ends in the state of the set that was reached; where
it fails at an unknown symbol, the compiled one fails in the same way.
-/

namespace WordAutomata.Automaton

variable {α : Type} [DecidableEq α] {automaton : Automaton α}

theorem isAccepting_subsetAutomaton {state : Nat} {subset : StateSet}
    (stands : automaton.subsetAutomaton.subsetOf? state = some subset) :
    automaton.subsetAutomaton.automaton.isAccepting state =
      subset.intersects automaton.accepting := by
  rw [Bool.eq_iff_iff, ← automaton.mem_accepting_subsetAutomaton stands]
  exact decide_eq_true_iff

/-- A successful run is followed transition by transition. -/
theorem WellFormed.run_subsetAutomaton_of_isWord (wellFormed : automaton.WellFormed)
    {word : List α} (isWord : automaton.alphabet.IsWord word) :
    ∃ state, automaton.subsetAutomaton.subsetOf? state = some (automaton.active word) ∧
      automaton.subsetAutomaton.run word =
        .ok ⟨(automaton.active word).intersects automaton.accepting, state, word.length⟩ := by
  rcases wellFormed.exists_stateAfter_subsetAutomaton isWord with ⟨state, reached, stands⟩
  refine ⟨state, stands, (Dfa.run_eq_ok_iff _ _ _).2 ⟨state, reached, ?_⟩⟩
  rw [isAccepting_subsetAutomaton stands]

/-- The compiled automaton gives the verdict of the automaton. -/
theorem WellFormed.decides_subsetAutomaton (wellFormed : automaton.WellFormed) {word : List α}
    (isWord : automaton.alphabet.IsWord word) :
    automaton.subsetAutomaton.decides word =
      .ok ((automaton.active word).intersects automaton.accepting) := by
  rcases wellFormed.run_subsetAutomaton_of_isWord isWord with ⟨state, _, ran⟩
  show (automaton.subsetAutomaton.run word).map Outcome.accepted = _
  rw [ran]
  rfl

/-- A run that meets an unknown symbol fails there, as no successor is missing before. -/
theorem WellFormed.run_subsetAutomaton_of_firstUnknown (wellFormed : automaton.WellFormed)
    {word : List α} {value : α} {position : Nat}
    (unknown : automaton.alphabet.FirstUnknown word value position) :
    automaton.subsetAutomaton.run word = .error (.symbolNotInAlphabet value position) := by
  rcases unknown with ⟨known, rest, rfl, isWord, foreign, rfl⟩
  rcases wellFormed.exists_stateAfter_subsetAutomaton isWord with ⟨state, reached, _⟩
  exact automaton.subsetAutomaton.run_of_not_mem_symbols rest reached foreign

theorem WellFormed.run_subsetAutomaton_ne_undefinedTransition
    (wellFormed : automaton.WellFormed) (word : List α) (state : String) (value : α)
    (position : Nat) :
    automaton.subsetAutomaton.run word ≠ .error (.undefinedTransition state value position) := by
  intro failed
  rcases automaton.alphabet.isWord_or_firstUnknown word with isWord | ⟨symbol, place, unknown⟩
  · rcases wellFormed.run_subsetAutomaton_of_isWord isWord with ⟨_, _, ran⟩
    rw [ran] at failed
    cases failed
  · rw [wellFormed.run_subsetAutomaton_of_firstUnknown unknown] at failed
    cases failed

/--
The subset construction fails exactly if there is no initial state.  Otherwise
its result follows every run of the automaton, on any word, and is never stuck.
-/
theorem determinize_preserves_runs (automaton : Automaton α) (wellFormed : automaton.WellFormed) :
    (automaton.initial = ∅ → automaton.determinize = .error .noInitialState) ∧
      (automaton.initial ≠ ∅ →
        ∃ dfa, automaton.determinize = .ok dfa ∧ ∀ word,
          (∀ outcome, automaton.run word = .ok outcome →
            ∃ followed, dfa.run word = .ok followed ∧
              followed.accepted = outcome.accepted ∧
              followed.transitions = outcome.transitions ∧
              dfa.subsetOf? followed.reached = some outcome.reached) ∧
          (∀ value position, automaton.run word = .error (.symbolNotInAlphabet value position) →
            dfa.run word = .error (.symbolNotInAlphabet value position)) ∧
          ∀ state value position,
            dfa.run word ≠ .error (.undefinedTransition state value position)) := by
  refine ⟨automaton.determinize_of_initial_eq_empty, ?_⟩
  intro something
  refine ⟨automaton.subsetAutomaton, automaton.determinize_of_initial_ne_empty something, ?_⟩
  intro word
  refine ⟨?_, ?_, wellFormed.run_subsetAutomaton_ne_undefinedTransition word⟩
  · intro outcome ran
    rcases (automaton.run_eq_ok_iff word outcome).1 ran with ⟨isWord, rfl⟩
    rcases wellFormed.run_subsetAutomaton_of_isWord isWord with ⟨state, stands, followed⟩
    exact ⟨_, followed, rfl, rfl, stands⟩
  · intro value position failed
    rcases (automaton.run_eq_error_iff word _).1 failed with ⟨symbol, place, unknown, same⟩
    rw [same]
    exact wellFormed.run_subsetAutomaton_of_firstUnknown unknown

theorem determinize_preserves_runs_silentCycle :
    silentCycle.WellFormed ∧
      ∃ dfa, silentCycle.determinize = .ok dfa ∧
        (∃ followed, dfa.run ['a', 'a', 'b'] = .ok followed ∧ followed.accepted = true ∧
          followed.transitions = 3 ∧ dfa.subsetOf? followed.reached = some (.singleton 2)) ∧
        dfa.run ['b', 'a', 'x'] = .error (.symbolNotInAlphabet 'x' 2) := by
  have wellFormed : silentCycle.WellFormed := by decide
  rcases (determinize_preserves_runs silentCycle wellFormed).2 (by decide) with
    ⟨dfa, compiled, preserves⟩
  have reading := (preserves ['a', 'a', 'b']).1 ⟨true, .singleton 2, 3⟩ rfl
  have failing := (preserves ['b', 'a', 'x']).2.1 'x' 2 rfl
  exact ⟨wellFormed, dfa, compiled, reading, failing⟩

end WordAutomata.Automaton
