import WordAutomata.Proofs.Difference
import WordAutomata.Proofs.Dfa.Deterministic
import WordAutomata.Proofs.Run.Nondeterministic

/-!
# Deterministic automata that are run nondeterministically

A deterministic automaton has no silent edge and at most one edge for each state
and symbol.  If it is run as a nondeterministic one, then at most one state is
active at any time: the state to which the word leads, or none after an edge was
missing.  So both ways of running agree as long as the deterministic run gets
on.  Where it gets stuck, the nondeterministic run goes on without an active
state, and can only fail at an unknown symbol further on.
-/

namespace WordAutomata

namespace StateSet

/-- The states at a place: the state itself, or none at all. -/
def ofPlace : Option Nat → StateSet
  | some state => .singleton state
  | none => ∅

@[simp]
theorem mem_ofPlace (place : Option Nat) (state : Nat) :
    state ∈ ofPlace place ↔ place = some state := by
  cases place with
  | none => simp [ofPlace]
  | some found => simp [ofPlace, eq_comm]

theorem singleton_injective : Function.Injective singleton := by
  intro first second same
  rw [← mem_singleton, ← same, mem_singleton]

/-- A set with at most one member is what stands at the place of its least one. -/
theorem eq_ofPlace_least? {set : StateSet} (single : set.size ≤ 1) :
    set = ofPlace set.least? := by
  obtain ⟨members, ascending⟩ := set
  rcases members with _ | ⟨state, _ | ⟨other, rest⟩⟩
  · rfl
  · rfl
  · simp [size] at single

end StateSet

/-- A symbol is not unknown if it stands in a part of the word that is over the alphabet. -/
theorem Alphabet.FirstUnknown.length_le {α : Type} {alphabet : Alphabet α}
    {known rest : List α} {value : α} {position : Nat}
    (unknown : alphabet.FirstUnknown (known ++ rest) value position)
    (isWord : alphabet.IsWord known) :
    known.length ≤ position := by
  rcases unknown with ⟨before, after, shape, _, foreign, rfl⟩
  by_contra shorter
  have standing : known[before.length]? = some value := by
    rw [← List.getElem?_append_left (Nat.lt_of_not_ge shorter), shape]
    simp
  exact foreign (isWord value (List.mem_of_getElem? standing))

namespace Dfa

variable {α : Type} [DecidableEq α] {dfa : Dfa α}

/-! ## Words that lead somewhere -/

/-- Only words over the alphabet lead to a state. -/
theorem isWord_of_stateAfter {word : List α} {state : Nat}
    (reached : dfa.stateAfter word = some state) :
    dfa.automaton.alphabet.IsWord word := by
  induction word using List.reverseRecOn generalizing state with
  | nil => exact dfa.automaton.alphabet.isWord_nil
  | append_singleton word last inductionHypothesis =>
      rw [stateAfter_append_singleton, Option.bind_eq_some_iff] at reached
      rcases reached with ⟨middle, reached, found⟩
      exact (dfa.automaton.alphabet.isWord_append_singleton word last).2
        ⟨inductionHypothesis reached, mem_symbols_of_successor? found⟩

/-- A word that leads nowhere leads nowhere however it goes on. -/
theorem stateAfter_append_eq_none {word : List α} (lost : dfa.stateAfter word = none)
    (rest : List α) :
    dfa.stateAfter (word ++ rest) = none := by
  induction rest using List.reverseRecOn with
  | nil => rwa [List.append_nil]
  | append_singleton rest last inductionHypothesis =>
      rw [← List.append_assoc, stateAfter_append_singleton, inductionHypothesis]
      rfl

/-- What a run that gets stuck tells about its word. -/
theorem exists_gap_of_run {word : List α} {state : String} {value : α} {position : Nat}
    (stuck : dfa.run word = .error (.undefinedTransition state value position)) :
    ∃ known rest, word = known ++ value :: rest ∧ known.length = position ∧
      dfa.automaton.alphabet.IsWord (known ++ [value]) ∧
      dfa.stateAfter (known ++ [value]) = none := by
  rcases (dfa.run_eq_error_iff word _).1 stuck with
    ⟨known, symbol, rest, source, shape, reached, unread⟩
  rcases (dfa.read_eq_error_iff _ source symbol _).1 unread with
    ⟨_, unknown⟩ | ⟨belongs, missing, gap⟩
  · cases unknown
  · rcases RunError.undefinedTransition.inj gap with ⟨_, rfl, rfl⟩
    refine ⟨known, rest, shape, rfl, ?_, ?_⟩
    · exact (dfa.automaton.alphabet.isWord_append_singleton known value).2
        ⟨isWord_of_stateAfter reached, belongs⟩
    · rw [stateAfter_append_singleton, reached]
      exact missing

/-! ## Active sets -/

/-- There is at most one edge for each state and symbol, known or not. -/
theorem WellFormed.targets_symbol_eq (wellFormed : dfa.WellFormed) (state : Nat) (value : α) :
    dfa.automaton.targets state (.symbol value) = .ofPlace (dfa.successor? state value) := by
  apply StateSet.eq_ofPlace_least?
  by_cases known : value ∈ dfa.automaton.alphabet.symbols
  · rcases Nat.lt_or_ge state dfa.automaton.size with present | missing
    · exact wellFormed.targets_size_le state (List.mem_range.2 present) value known
    · rw [dfa.automaton.targets_eq_empty_of_size_le _ missing]
      exact Nat.zero_le 1
  · rw [dfa.automaton.targets_eq_empty_of_not_mem state known]
    exact Nat.zero_le 1

/-- No silent edge adds anything to a set of states. -/
theorem WellFormed.closure_eq_self (wellFormed : dfa.WellFormed) (states : StateSet) :
    dfa.automaton.closure states = states :=
  wellFormed.automaton.closure_eq_self wellFormed.edges_reading states

theorem WellFormed.read_ofPlace (wellFormed : dfa.WellFormed) (place : Option Nat) (value : α) :
    dfa.automaton.read (.ofPlace place) value =
      .ofPlace (place.bind (dfa.successor? · value)) := by
  rw [Automaton.read, wellFormed.closure_eq_self]
  ext state
  rw [Automaton.mem_move, StateSet.mem_ofPlace, Option.bind_eq_some_iff]
  simp only [StateSet.mem_ofPlace, wellFormed.targets_symbol_eq]

/-- The only state that is active after a word is the one to which the word leads. -/
theorem WellFormed.active_eq_ofPlace (wellFormed : dfa.WellFormed) (word : List α) :
    dfa.automaton.active word = .ofPlace (dfa.stateAfter word) := by
  induction word using List.reverseRecOn with
  | nil =>
      rw [Automaton.active_nil, Automaton.start, wellFormed.closure_eq_self, wellFormed.initial_eq]
      rfl
  | append_singleton word last inductionHypothesis =>
      rw [Automaton.active_append_singleton, inductionHypothesis, wellFormed.read_ofPlace,
        stateAfter_append_singleton]

/-- Something accepting is active exactly if the run is in an accepting state. -/
theorem WellFormed.intersects_active (wellFormed : dfa.WellFormed) (word : List α) :
    (dfa.automaton.active word).intersects dfa.automaton.accepting =
      dfa.acceptsAt (dfa.stateAfter word) := by
  rw [Bool.eq_iff_iff, StateSet.intersects_iff, wellFormed.active_eq_ofPlace]
  simp only [StateSet.mem_ofPlace]
  cases dfa.stateAfter word with
  | none => simp [acceptsAt]
  | some state => simp [acceptsAt, Automaton.isAccepting]

/-! ## Both ways of running -/

theorem WellFormed.run_automaton_of_isWord (wellFormed : dfa.WellFormed) {word : List α}
    (isWord : dfa.automaton.alphabet.IsWord word) :
    dfa.automaton.run word =
      .ok ⟨dfa.acceptsAt (dfa.stateAfter word), .ofPlace (dfa.stateAfter word), word.length⟩ := by
  rw [Automaton.run_eq_ok_iff]
  refine ⟨isWord, ?_⟩
  rw [wellFormed.intersects_active, wellFormed.active_eq_ofPlace]

/--
Both ways of running a deterministic automaton agree on every word that the
deterministic run can read, and on every word in which it meets an unknown
symbol.  If the deterministic run gets stuck, then the nondeterministic one ends
without an active state, or it fails at an unknown symbol that comes later.
-/
theorem run_agrees_with_view (dfa : Dfa α) (wellFormed : dfa.WellFormed) (word : List α) :
    (∀ outcome, dfa.run word = .ok outcome →
      dfa.automaton.run word =
        .ok ⟨outcome.accepted, .singleton outcome.reached, outcome.transitions⟩) ∧
      (∀ value position, dfa.run word = .error (.symbolNotInAlphabet value position) →
        dfa.automaton.run word = .error (.symbolNotInAlphabet value position)) ∧
      ∀ state value position,
        dfa.run word = .error (.undefinedTransition state value position) →
          (dfa.automaton.alphabet.IsWord word ∧
              dfa.automaton.run word = .ok ⟨false, ∅, word.length⟩) ∨
            ∃ unknown place, dfa.automaton.alphabet.FirstUnknown word unknown place ∧
              position < place ∧
              dfa.automaton.run word = .error (.symbolNotInAlphabet unknown place) := by
  refine ⟨?_, ?_, ?_⟩
  · intro outcome ran
    rcases (dfa.run_eq_ok_iff word outcome).1 ran with ⟨state, reached, rfl⟩
    rw [wellFormed.run_automaton_of_isWord (isWord_of_stateAfter reached), reached]
    rfl
  · intro value position failed
    rcases (dfa.run_eq_error_iff word _).1 failed with
      ⟨known, symbol, rest, state, rfl, reached, unread⟩
    rcases (dfa.read_eq_error_iff _ state symbol _).1 unread with ⟨foreign, same⟩ | ⟨_, _, gap⟩
    · exact (dfa.automaton.run_eq_error_iff _ _).2 ⟨symbol, known.length,
        ⟨known, rest, rfl, isWord_of_stateAfter reached, foreign, rfl⟩, same⟩
    · cases gap
  · intro state value position stuck
    rcases exists_gap_of_run stuck with ⟨known, rest, shape, counted, isWord, lost⟩
    have split : word = (known ++ [value]) ++ rest := by
      rw [shape, List.append_assoc]
      rfl
    rcases dfa.automaton.alphabet.isWord_or_firstUnknown word with
      isWord' | ⟨unknown, place, first⟩
    · refine Or.inl ⟨isWord', ?_⟩
      rw [wellFormed.run_automaton_of_isWord isWord', split, stateAfter_append_eq_none lost rest]
      rfl
    · refine Or.inr ⟨unknown, place, first, ?_,
        (dfa.automaton.run_eq_error_iff word _).2 ⟨unknown, place, first, rfl⟩⟩
      rw [split] at first
      have behind := first.length_le isWord
      rw [List.length_append, List.length_singleton, counted] at behind
      exact behind

/-- The letter 'b' cannot be read twice in a row, and the letter 'x' is not known. -/
theorem run_agrees_with_view_undoable :
    undoable.WellFormed ∧
      undoable.automaton.run ['a', 'b', 'a'] = .ok ⟨true, .singleton 1, 3⟩ ∧
      undoable.automaton.run ['a', 'x', 'b'] = .error (.symbolNotInAlphabet 'x' 1) ∧
      undoable.run ['a', 'b', 'b', 'a', 'x'] = .error (.undefinedTransition "p" 'b' 2) ∧
      undoable.automaton.alphabet.FirstUnknown ['a', 'b', 'b', 'a', 'x'] 'x' 4 := by
  have wellFormed : undoable.WellFormed := by decide
  have reading := (run_agrees_with_view undoable wellFormed ['a', 'b', 'a']).1
    ⟨true, 1, 3⟩ (by rfl)
  have failing := (run_agrees_with_view undoable wellFormed ['a', 'x', 'b']).2.1 'x' 1 (by rfl)
  have stuck : undoable.run ['a', 'b', 'b', 'a', 'x'] =
      .error (.undefinedTransition "p" 'b' 2) := by rfl
  refine ⟨wellFormed, reading, failing, stuck, ?_⟩
  rcases (run_agrees_with_view undoable wellFormed ['a', 'b', 'b', 'a', 'x']).2.2 "p" 'b' 2 stuck
    with ⟨isWord, _⟩ | ⟨unknown, place, first, _, failed⟩
  · exact absurd isWord (by decide)
  · have computed : undoable.automaton.run ['a', 'b', 'b', 'a', 'x'] =
        .error (.symbolNotInAlphabet 'x' 4) := by rfl
    rw [computed, Except.error.injEq, RunError.symbolNotInAlphabet.injEq] at failed
    rcases failed with ⟨rfl, rfl⟩
    exact first

end Dfa

end WordAutomata
