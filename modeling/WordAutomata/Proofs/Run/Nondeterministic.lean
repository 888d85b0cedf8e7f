import Mathlib.Data.List.Induction
import WordAutomata.Proofs.Closure
import WordAutomata.Proofs.Run.Engine
import WordAutomata.Run.Nondeterministic

/-!
# Runs of nondeterministic automata

A run reads every word over the alphabet, and the set that it reaches is found
by reading the symbols in order.  It only fails at a symbol that does not belong
to the alphabet, and it never gets stuck, as the empty set can be read from too.
-/

namespace WordAutomata.Automaton

variable {α : Type} [DecidableEq α] {automaton : Automaton α}

/-- The states that are active after the symbols of a word were read in order. -/
def active (automaton : Automaton α) (word : List α) : StateSet :=
  word.foldl automaton.read automaton.start

@[simp]
theorem active_nil (automaton : Automaton α) : automaton.active [] = automaton.start :=
  rfl

@[simp]
theorem active_append_singleton (automaton : Automaton α) (word : List α) (last : α) :
    automaton.active (word ++ [last]) = automaton.read (automaton.active word) last := by
  simp [active]

theorem readsTo_iff (automaton : Automaton α) (word : List α) (states : StateSet) :
    automaton.engine.ReadsTo word states ↔
      automaton.alphabet.IsWord word ∧ states = automaton.active word := by
  induction word using List.reverseRecOn generalizing states with
  | nil => simp [engine]
  | append_singleton word last inductionHypothesis =>
      rw [Engine.readsTo_append_singleton_iff, active_append_singleton,
        Alphabet.isWord_append_singleton]
      constructor
      · rintro ⟨middle, reading, moved⟩
        rcases (inductionHypothesis middle).1 reading with ⟨isWord, rfl⟩
        by_cases known : last ∈ automaton.alphabet.symbols
        · simp only [engine, if_pos known, Except.ok.injEq] at moved
          exact ⟨⟨isWord, known⟩, moved.symm⟩
        · simp [engine, known] at moved
      · rintro ⟨⟨isWord, known⟩, rfl⟩
        exact ⟨automaton.active word, (inductionHypothesis _).2 ⟨isWord, rfl⟩,
          by simp [engine, known]⟩

/-- A run reads the words over the alphabet, and no others. -/
theorem run_eq_ok_iff (automaton : Automaton α) (word : List α) (outcome : Outcome StateSet) :
    automaton.run word = .ok outcome ↔
      automaton.alphabet.IsWord word ∧
        outcome = ⟨(automaton.active word).intersects automaton.accepting,
          automaton.active word, word.length⟩ := by
  rw [run, Engine.run_eq_ok_iff_readsTo]
  constructor
  · rintro ⟨states, reading, rfl⟩
    rcases (automaton.readsTo_iff word states).1 reading with ⟨isWord, rfl⟩
    exact ⟨isWord, rfl⟩
  · rintro ⟨isWord, rfl⟩
    exact ⟨_, (automaton.readsTo_iff word _).2 ⟨isWord, rfl⟩, rfl⟩

/-- A word over the alphabet is accepted exactly if some active state accepts it. -/
theorem decides_of_isWord (automaton : Automaton α) {word : List α}
    (isWord : automaton.alphabet.IsWord word) :
    automaton.decides word = .ok ((automaton.active word).intersects automaton.accepting) := by
  show (automaton.run word).map Outcome.accepted = _
  rw [(automaton.run_eq_ok_iff word _).2 ⟨isWord, rfl⟩]
  rfl

/-- A run fails at the first symbol that does not belong to the alphabet, and nowhere else. -/
theorem run_eq_error_iff (automaton : Automaton α) (word : List α) (failure : RunError α) :
    automaton.run word = .error failure ↔
      ∃ value position, automaton.alphabet.FirstUnknown word value position ∧
        failure = .symbolNotInAlphabet value position := by
  rw [run, Engine.run_eq_error_iff_readsTo]
  constructor
  · rintro ⟨known, value, rest, states, rfl, reading, stuck⟩
    have isWord := ((automaton.readsTo_iff known states).1 reading).1
    by_cases member : value ∈ automaton.alphabet.symbols
    · simp [engine, member] at stuck
    · simp only [engine, if_neg member, Except.error.injEq] at stuck
      exact ⟨value, known.length, ⟨known, rest, rfl, isWord, member, rfl⟩, stuck.symm⟩
  · rintro ⟨value, position, ⟨known, rest, rfl, isWord, foreign, rfl⟩, rfl⟩
    exact ⟨known, value, rest, _, rfl, (automaton.readsTo_iff known _).2 ⟨isWord, rfl⟩,
      by simp [engine, foreign]⟩

end WordAutomata.Automaton
