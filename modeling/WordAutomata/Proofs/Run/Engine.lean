import WordAutomata.Alphabet
import WordAutomata.Run.Engine

/-!
# How far a word can be read

A run succeeds if every symbol can be read in its turn, and otherwise reports
the failure of the first one that cannot.  Both outcomes are stated through the
situations that are reached after the prefixes of the word.
-/

namespace WordAutomata

variable {α σ : Type}

namespace Alphabet

/-- All symbols of the word belong to the alphabet. -/
def IsWord (alphabet : Alphabet α) (word : List α) : Prop :=
  ∀ value ∈ word, value ∈ alphabet.symbols

instance [DecidableEq α] (alphabet : Alphabet α) (word : List α) :
    Decidable (alphabet.IsWord word) :=
  inferInstanceAs (Decidable (∀ value ∈ word, value ∈ alphabet.symbols))

/-- The first symbol of the word that does not belong to the alphabet stands at the position. -/
def FirstUnknown (alphabet : Alphabet α) (word : List α) (value : α) (position : Nat) : Prop :=
  ∃ known rest, word = known ++ value :: rest ∧ alphabet.IsWord known ∧
    value ∉ alphabet.symbols ∧ known.length = position

@[simp]
theorem isWord_nil (alphabet : Alphabet α) : alphabet.IsWord [] := by
  simp [IsWord]

@[simp]
theorem isWord_append_singleton (alphabet : Alphabet α) (word : List α) (last : α) :
    alphabet.IsWord (word ++ [last]) ↔ alphabet.IsWord word ∧ last ∈ alphabet.symbols := by
  simp [IsWord, or_imp, forall_and]

theorem isWord_append (alphabet : Alphabet α) (first second : List α) :
    alphabet.IsWord (first ++ second) ↔ alphabet.IsWord first ∧ alphabet.IsWord second :=
  List.forall_mem_append

/-- A word is over the alphabet, or it has a first symbol that is not. -/
theorem isWord_or_firstUnknown [DecidableEq α] (alphabet : Alphabet α) (word : List α) :
    alphabet.IsWord word ∨ ∃ value position, alphabet.FirstUnknown word value position := by
  induction word with
  | nil => exact Or.inl alphabet.isWord_nil
  | cons first rest inductionHypothesis =>
      by_cases known : first ∈ alphabet.symbols
      · rcases inductionHypothesis with isWord | ⟨value, _, before, after, rfl, isWord, foreign, _⟩
        · exact Or.inl (List.forall_mem_cons.2 ⟨known, isWord⟩)
        · exact Or.inr ⟨value, _, first :: before, after, rfl,
            List.forall_mem_cons.2 ⟨known, isWord⟩, foreign, rfl⟩
      · exact Or.inr ⟨first, 0, [], rest, rfl, alphabet.isWord_nil, known, rfl⟩

end Alphabet

namespace Engine

/-- The engine can read the word from its start, and is in the situation afterwards. -/
def ReadsTo (engine : Engine α σ) (word : List α) (situation : σ) : Prop :=
  engine.advance engine.fresh word = (⟨situation, word.length⟩, none)

theorem step_eq_ok_iff (engine : Engine α σ) (runner : Runner σ) (value : α) (next : Runner σ) :
    engine.step runner value = .ok next ↔
      engine.read runner.stepCount runner.current value = .ok next.current ∧
        next.stepCount = runner.stepCount + 1 := by
  obtain ⟨current, stepCount⟩ := next
  cases reading : engine.read runner.stepCount runner.current value with
  | ok reached => simp [step, reading, eq_comm]
  | error failure => simp [step, reading]

theorem step_eq_error_iff (engine : Engine α σ) (runner : Runner σ) (value : α)
    (failure : RunError α) :
    engine.step runner value = .error failure ↔
      engine.read runner.stepCount runner.current value = .error failure := by
  cases reading : engine.read runner.stepCount runner.current value <;> simp [step, reading]

/-- A runner that reads a whole word has taken one step for each symbol. -/
theorem stepCount_advance {engine : Engine α σ} {runner final : Runner σ} {word : List α}
    (finished : engine.advance runner word = (final, none)) :
    final.stepCount = runner.stepCount + word.length := by
  induction word generalizing runner with
  | nil =>
      simp only [advance, Prod.mk.injEq, and_true] at finished
      simp [finished]
  | cons value rest inductionHypothesis =>
      simp only [advance] at finished
      cases stepped : engine.step runner value with
      | ok next =>
          rw [stepped] at finished
          have counted := ((engine.step_eq_ok_iff runner value next).1 stepped).2
          rw [inductionHypothesis finished, counted, List.length_cons]
          omega
      | error failure => simp [stepped] at finished

/-- A failure is that of the first symbol that cannot be read. -/
theorem exists_split_of_advance {engine : Engine α σ} {runner final : Runner σ} {word : List α}
    {failure : RunError α} (failed : engine.advance runner word = (final, some failure)) :
    ∃ known value rest, word = known ++ value :: rest ∧
      engine.advance runner known = (final, none) ∧
      engine.step final value = .error failure := by
  induction word generalizing runner with
  | nil => simp [advance] at failed
  | cons value rest inductionHypothesis =>
      simp only [advance] at failed
      cases stepped : engine.step runner value with
      | ok next =>
          rw [stepped] at failed
          rcases inductionHypothesis failed with ⟨known, last, after, rfl, read, stuck⟩
          exact ⟨value :: known, last, after, rfl, by simpa [advance, stepped] using read, stuck⟩
      | error reason =>
          simp only [stepped, Prod.mk.injEq, Option.some.injEq] at failed
          rcases failed with ⟨rfl, rfl⟩
          exact ⟨[], value, rest, rfl, rfl, stepped⟩

theorem readsTo_of_advance {engine : Engine α σ} {final : Runner σ} {word : List α}
    (finished : engine.advance engine.fresh word = (final, none)) :
    final.stepCount = word.length ∧ engine.ReadsTo word final.current := by
  have counted : final.stepCount = word.length := by
    simpa [fresh] using stepCount_advance finished
  refine ⟨counted, ?_⟩
  rw [ReadsTo, finished, ← counted]

@[simp]
theorem readsTo_nil_iff (engine : Engine α σ) (situation : σ) :
    engine.ReadsTo [] situation ↔ situation = engine.start := by
  simp [ReadsTo, advance, fresh, eq_comm]

/-- A word with one more symbol can be read if the symbol can be read at its place. -/
theorem readsTo_append_singleton_iff (engine : Engine α σ) (word : List α) (value : α)
    (target : σ) :
    engine.ReadsTo (word ++ [value]) target ↔
      ∃ middle, engine.ReadsTo word middle ∧
        engine.read word.length middle value = .ok target := by
  constructor
  · intro finished
    rw [ReadsTo, advance_append] at finished
    rcases reading : engine.advance engine.fresh word with ⟨middle, failure⟩
    rw [reading] at finished
    cases failure with
    | some failure => simp at finished
    | none =>
        rcases readsTo_of_advance reading with ⟨counted, read⟩
        simp only [advance] at finished
        cases stepped : engine.step middle value with
        | error failure => simp [stepped] at finished
        | ok next =>
            simp only [stepped, Prod.mk.injEq, and_true] at finished
            have moved := ((engine.step_eq_ok_iff middle value next).1 stepped).1
            rw [counted, finished] at moved
            exact ⟨middle.current, read, moved⟩
  · rintro ⟨middle, reading, moved⟩
    have stepped : engine.step ⟨middle, word.length⟩ value = .ok ⟨target, word.length + 1⟩ :=
      (engine.step_eq_ok_iff _ _ _).2 ⟨moved, rfl⟩
    rw [ReadsTo, advance_append, reading]
    simp [advance, stepped]

theorem resume_eq_ok_iff (engine : Engine α σ) (runner : Runner σ) (word : List α)
    (outcome : Outcome σ) :
    engine.resume runner word = .ok outcome ↔
      ∃ final, engine.advance runner word = (final, none) ∧ outcome = engine.outcome final := by
  unfold resume
  rcases engine.advance runner word with ⟨final, _ | failure⟩
  · constructor
    · intro finished
      exact ⟨final, rfl, (Except.ok.inj finished).symm⟩
    · rintro ⟨_, same, rfl⟩
      cases same
      rfl
  · simp

theorem resume_eq_error_iff (engine : Engine α σ) (runner : Runner σ) (word : List α)
    (failure : RunError α) :
    engine.resume runner word = .error failure ↔
      ∃ final, engine.advance runner word = (final, some failure) := by
  unfold resume
  rcases engine.advance runner word with ⟨final, _ | failure⟩ <;> simp

/-- A run succeeds exactly if the whole word can be read. -/
theorem run_eq_ok_iff_readsTo (engine : Engine α σ) (word : List α) (outcome : Outcome σ) :
    engine.run word = .ok outcome ↔
      ∃ situation, engine.ReadsTo word situation ∧
        outcome = ⟨engine.accepts situation, situation, word.length⟩ := by
  rw [run, resume_eq_ok_iff]
  constructor
  · rintro ⟨final, finished, rfl⟩
    rcases readsTo_of_advance finished with ⟨counted, reading⟩
    refine ⟨final.current, reading, ?_⟩
    rw [← counted]
    rfl
  · rintro ⟨situation, reading, rfl⟩
    exact ⟨_, reading, rfl⟩

/-- A run fails exactly with the failure of the first symbol that cannot be read. -/
theorem run_eq_error_iff_readsTo (engine : Engine α σ) (word : List α) (failure : RunError α) :
    engine.run word = .error failure ↔
      ∃ known value rest situation, word = known ++ value :: rest ∧
        engine.ReadsTo known situation ∧
        engine.read known.length situation value = .error failure := by
  rw [run, resume_eq_error_iff]
  constructor
  · rintro ⟨final, failed⟩
    rcases exists_split_of_advance failed with ⟨known, value, rest, shape, read, stuck⟩
    rcases readsTo_of_advance read with ⟨counted, readable⟩
    have unread := (engine.step_eq_error_iff final value failure).1 stuck
    rw [counted] at unread
    exact ⟨known, value, rest, final.current, shape, readable, unread⟩
  · rintro ⟨known, value, rest, situation, rfl, reading, stuck⟩
    have stepped := (engine.step_eq_error_iff ⟨situation, known.length⟩ value failure).2 stuck
    refine ⟨⟨situation, known.length⟩, ?_⟩
    rw [advance_append, reading]
    simp [advance, stepped]

end Engine

end WordAutomata
