import WordAutomata.Proofs.Run.Deterministic

/-!
# Reading on from a word

A runner that stands behind a word reads on like a new runner that reads the
word first, and its positions count from the start of the word.  If it fails
then it has consumed the longest part of the rest that can be read there, and
the failure is that of the symbol behind this part.
-/

namespace WordAutomata

variable {α σ : Type}

namespace Engine

/-- The symbols of a word that a runner reads before the first one that it cannot read. -/
def consumed (engine : Engine α σ) (runner : Runner σ) : List α → List α
  | [] => []
  | value :: rest =>
      match engine.step runner value with
      | .ok next => value :: engine.consumed next rest
      | .error _ => []

/-! ## The symbols that can be read -/

theorem consumed_prefix (engine : Engine α σ) (runner : Runner σ) (word : List α) :
    engine.consumed runner word <+: word := by
  induction word generalizing runner with
  | nil => exact List.prefix_rfl
  | cons value rest inductionHypothesis =>
      unfold consumed
      cases engine.step runner value with
      | ok next => exact (List.prefix_cons_inj value).2 (inductionHypothesis next)
      | error failure => exact List.nil_prefix

/-- The symbols that can be read take a runner to where the whole word takes it. -/
theorem advance_consumed (engine : Engine α σ) (runner : Runner σ) (word : List α) :
    engine.advance runner (engine.consumed runner word) =
      ((engine.advance runner word).1, none) := by
  induction word generalizing runner with
  | nil => rfl
  | cons value rest inductionHypothesis =>
      cases stepped : engine.step runner value with
      | ok next => simpa only [consumed, advance, stepped] using inductionHypothesis next
      | error failure => simp only [consumed, advance, stepped]

/-- No longer part of the word can be read. -/
theorem prefix_consumed {engine : Engine α σ} {runner final : Runner σ} {longer word : List α}
    (part : longer <+: word) (finished : engine.advance runner longer = (final, none)) :
    longer <+: engine.consumed runner word := by
  induction word generalizing runner longer with
  | nil =>
      cases List.prefix_nil.1 part
      exact List.nil_prefix
  | cons value rest inductionHypothesis =>
      cases longer with
      | nil => exact List.nil_prefix
      | cons first others =>
          -- Both words begin with one symbol, so the runner takes the same step for both.
          rcases List.cons_prefix_cons.1 part with ⟨rfl, remaining⟩
          cases stepped : engine.step runner first with
          | ok next =>
              simp only [advance, stepped] at finished
              simpa only [consumed, stepped, List.prefix_cons_inj] using
                inductionHypothesis remaining finished
          | error failure => simp [advance, stepped] at finished

/-! ## Behind a word -/

section Onward

variable {engine : Engine α σ} {runner : Runner σ} {word : List α}

/-- A new runner that reads two words in a row resumes where the first one ends. -/
theorem run_append (standing : engine.advance engine.fresh word = (runner, none))
    (rest : List α) :
    engine.run (word ++ rest) = engine.resume runner rest := by
  unfold run resume
  rw [advance_append, standing]

theorem run_of_standing (standing : engine.advance engine.fresh word = (runner, none)) :
    engine.run word = .ok (engine.outcome runner) := by
  unfold run resume
  rw [standing]

theorem advance_append_consumed (standing : engine.advance engine.fresh word = (runner, none))
    (rest : List α) :
    engine.advance engine.fresh (word ++ engine.consumed runner rest) =
      ((engine.advance runner rest).1, none) := by
  rw [advance_append, standing]
  exact engine.advance_consumed runner rest

/--
The runner has read a first part of the rest after the word, and no longer part
of the rest can be read after the word.
-/
structure IsLongestReading (engine : Engine α σ) (word rest read : List α)
    (final : Runner σ) : Prop where
  part : read <+: rest
  standing : engine.advance engine.fresh (word ++ read) = (final, none)
  longest : ∀ longer outcome, longer <+: rest →
    engine.run (word ++ longer) = .ok outcome → longer <+: read

theorem isLongestReading_consumed
    (standing : engine.advance engine.fresh word = (runner, none)) (rest : List α) :
    engine.IsLongestReading word rest (engine.consumed runner rest)
      (engine.advance runner rest).1 where
  part := engine.consumed_prefix runner rest
  standing := advance_append_consumed standing rest
  longest := by
    intro longer outcome part ran
    rw [run_append standing, resume_eq_ok_iff] at ran
    rcases ran with ⟨final, advanced, _⟩
    exact prefix_consumed part advanced

/-- A run that fails behind a word that can be read fails at a symbol of the rest. -/
theorem exists_firstUnread {failure : RunError α} {rest : List α}
    (standing : engine.advance engine.fresh word = (runner, none))
    (failed : engine.run (word ++ rest) = .error failure) :
    ∃ read value behind situation, rest = read ++ value :: behind ∧
      engine.ReadsTo (word ++ read) situation ∧
      engine.read (word ++ read).length situation value = .error failure := by
  rw [run_append standing, resume_eq_error_iff] at failed
  rcases failed with ⟨final, stopped⟩
  rcases exists_split_of_advance stopped with ⟨read, value, behind, shape, known, stuck⟩
  have onward : engine.advance engine.fresh (word ++ read) = (final, none) := by
    rw [advance_append, standing]
    exact known
  rcases readsTo_of_advance onward with ⟨counted, reading⟩
  have unread := (engine.step_eq_error_iff final value failure).1 stuck
  -- The failure carries the count of the runner, which is a position in both words together.
  rw [counted] at unread
  exact ⟨read, value, behind, final.current, shape, reading, unread⟩

end Onward

end Engine

/-- A deterministic run fails at a symbol that has no successor, which may also be unknown. -/
theorem Dfa.exists_firstUnread [DecidableEq α] {dfa : Dfa α} {runner : Runner Nat}
    {word rest : List α} {failure : RunError α}
    (standing : dfa.engine.advance dfa.engine.fresh word = (runner, none))
    (failed : dfa.run (word ++ rest) = .error failure) :
    ∃ read value behind outcome, rest = read ++ value :: behind ∧
      dfa.run (word ++ read) = .ok outcome ∧
      dfa.successor? outcome.reached value = none ∧
      failure =
        if value ∈ dfa.automaton.alphabet.symbols then
          .undefinedTransition (dfa.automaton.nameOf outcome.reached) value
            (word.length + read.length)
        else
          .symbolNotInAlphabet value (word.length + read.length) := by
  rcases Engine.exists_firstUnread standing failed with
    ⟨read, value, behind, state, shape, reading, unread⟩
  have ran := (dfa.engine.run_eq_ok_iff_readsTo (word ++ read) _).2 ⟨state, reading, rfl⟩
  refine ⟨read, value, behind, _, shape, ran, ?_⟩
  rw [List.length_append] at unread
  rcases (dfa.read_eq_error_iff _ state value failure).1 unread with
    ⟨foreign, rfl⟩ | ⟨known, missing, rfl⟩
  · exact ⟨dfa.successor?_eq_none_of_not_mem state foreign, (if_neg foreign).symm⟩
  · exact ⟨missing, (if_pos known).symm⟩

end WordAutomata
