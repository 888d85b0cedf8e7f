import Mathlib.Data.List.Induction
import WordAutomata.Proofs.Run.Engine
import WordAutomata.Proofs.WellFormed
import WordAutomata.Run.Deterministic

/-!
# Runs of deterministic automata

A run succeeds exactly if successors lead through the whole word.  It fails at
the first symbol that does not belong to the alphabet or has no successor.
-/

namespace WordAutomata.Dfa

variable {α : Type} [DecidableEq α]

/-- The state to which the symbols of a word lead, unless a successor is missing. -/
def stateAfter (dfa : Dfa α) (word : List α) : Option Nat :=
  word.foldl (fun state value => state.bind (dfa.successor? · value)) (some dfa.initial)

@[simp]
theorem stateAfter_nil (dfa : Dfa α) : dfa.stateAfter [] = some dfa.initial :=
  rfl

@[simp]
theorem stateAfter_append_singleton (dfa : Dfa α) (word : List α) (last : α) :
    dfa.stateAfter (word ++ [last]) =
      (dfa.stateAfter word).bind (dfa.successor? · last) := by
  simp [stateAfter]

/-- Where a word leads depends only on where its beginning leads. -/
theorem stateAfter_append_congr (dfa : Dfa α) {first second : List α}
    (together : dfa.stateAfter first = dfa.stateAfter second) (rest : List α) :
    dfa.stateAfter (first ++ rest) = dfa.stateAfter (second ++ rest) := by
  rw [stateAfter, List.foldl_append, ← stateAfter, together, stateAfter, ← List.foldl_append,
    ← stateAfter]

theorem mem_symbols_of_successor? {dfa : Dfa α} {state target : Nat} {value : α}
    (found : dfa.successor? state value = some target) :
    value ∈ dfa.automaton.alphabet.symbols := by
  by_cases known : value ∈ dfa.automaton.alphabet.symbols
  · exact known
  · simp [dfa.successor?_eq_none_of_not_mem state known] at found

theorem read_eq_ok_iff (dfa : Dfa α) (position state : Nat) (value : α) (target : Nat) :
    dfa.engine.read position state value = .ok target ↔
      dfa.successor? state value = some target := by
  constructor
  · intro moved
    by_cases known : value ∈ dfa.automaton.alphabet.symbols
    · cases found : dfa.successor? state value with
      | none => simp [engine, known, found] at moved
      | some next => simpa [engine, known, found] using moved
    · simp [engine, known] at moved
  · intro found
    have known := mem_symbols_of_successor? found
    simp [engine, known, found]

/-- An unknown symbol is reported before a missing successor. -/
theorem read_eq_error_iff (dfa : Dfa α) (position state : Nat) (value : α)
    (failure : RunError α) :
    dfa.engine.read position state value = .error failure ↔
      (value ∉ dfa.automaton.alphabet.symbols ∧ failure = .symbolNotInAlphabet value position) ∨
        (value ∈ dfa.automaton.alphabet.symbols ∧ dfa.successor? state value = none ∧
          failure = .undefinedTransition (dfa.automaton.nameOf state) value position) := by
  by_cases known : value ∈ dfa.automaton.alphabet.symbols
  · cases found : dfa.successor? state value with
    | none => simp [engine, known, found, eq_comm]
    | some next => simp [engine, known, found]
  · simp [engine, known, eq_comm]

theorem readsTo_iff (dfa : Dfa α) (word : List α) (state : Nat) :
    dfa.engine.ReadsTo word state ↔ dfa.stateAfter word = some state := by
  induction word using List.reverseRecOn generalizing state with
  | nil => simp [engine, eq_comm]
  | append_singleton word last inductionHypothesis =>
      rw [Engine.readsTo_append_singleton_iff, stateAfter_append_singleton,
        Option.bind_eq_some_iff]
      simp only [inductionHypothesis, read_eq_ok_iff]

/-- A run succeeds exactly if the successors lead through the whole word. -/
theorem run_eq_ok_iff (dfa : Dfa α) (word : List α) (outcome : Outcome Nat) :
    dfa.run word = .ok outcome ↔
      ∃ state, dfa.stateAfter word = some state ∧
        outcome = ⟨dfa.automaton.isAccepting state, state, word.length⟩ := by
  rw [run, Engine.run_eq_ok_iff_readsTo]
  simp only [readsTo_iff]
  rfl

/-- Some run on the word ends in the state exactly if the word leads there. -/
theorem exists_run_reaching_iff (dfa : Dfa α) (word : List α) (state : Nat) :
    (∃ outcome, dfa.run word = .ok outcome ∧ outcome.reached = state) ↔
      dfa.stateAfter word = some state := by
  constructor
  · rintro ⟨outcome, ran, rfl⟩
    rcases (dfa.run_eq_ok_iff word outcome).1 ran with ⟨state, reached, rfl⟩
    exact reached
  · intro reached
    exact ⟨_, (dfa.run_eq_ok_iff word _).2 ⟨state, reached, rfl⟩, rfl⟩

/-- A run fails where the successors lead no further, for the first reason that applies there. -/
theorem run_eq_error_iff (dfa : Dfa α) (word : List α) (failure : RunError α) :
    dfa.run word = .error failure ↔
      ∃ known value rest state, word = known ++ value :: rest ∧
        dfa.stateAfter known = some state ∧
        dfa.engine.read known.length state value = .error failure := by
  rw [run, Engine.run_eq_error_iff_readsTo]
  simp only [readsTo_iff]

/-- A run that is in some state when it meets an unknown symbol fails there. -/
theorem run_of_not_mem_symbols (dfa : Dfa α) {known : List α} {value : α} (rest : List α)
    {state : Nat} (reached : dfa.stateAfter known = some state)
    (foreign : value ∉ dfa.automaton.alphabet.symbols) :
    dfa.run (known ++ value :: rest) = .error (.symbolNotInAlphabet value known.length) := by
  have unread := (dfa.read_eq_error_iff known.length state value _).2 (Or.inl ⟨foreign, rfl⟩)
  exact (dfa.run_eq_error_iff _ _).2 ⟨known, value, rest, state, rfl, reached, unread⟩

/-- A word is accepted exactly if it leads to an accepting state. -/
theorem decides_eq_ok_iff (dfa : Dfa α) (word : List α) (verdict : Bool) :
    dfa.decides word = .ok verdict ↔
      ∃ state, dfa.stateAfter word = some state ∧ dfa.automaton.isAccepting state = verdict := by
  have mapped : dfa.decides word = (dfa.run word).map Outcome.accepted := rfl
  rw [mapped]
  constructor
  · intro decided
    cases ran : dfa.run word with
    | error failure => simp [ran, Except.map] at decided
    | ok outcome =>
        rcases (dfa.run_eq_ok_iff word outcome).1 ran with ⟨state, reached, rfl⟩
        rw [ran] at decided
        exact ⟨state, reached, Except.ok.inj decided⟩
  · rintro ⟨state, reached, rfl⟩
    rw [(dfa.run_eq_ok_iff word _).2 ⟨state, reached, rfl⟩]
    rfl

end WordAutomata.Dfa
