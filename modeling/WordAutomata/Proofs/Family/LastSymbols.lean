import WordAutomata.Proofs.Family.FromLast
import WordAutomata.Proofs.Run.Nondeterministic

/-!
# What a counter from the end remembers

After any word the first state of the counter is active, and each later state is
active exactly if the symbol that stands at its number from the end is a one.
So the automaton accepts the words with a one at its position from the end, and
the active states tell which of the last symbols are ones, but nothing about the
symbols before them.
-/

namespace WordAutomata.Family

/-! ## Ones -/

/-- The symbol at the position from the end is a one; the last symbol has position one. -/
def OneFromEnd (word : List Char) (position : Nat) : Prop :=
  position ≤ word.length ∧ word[word.length - position]? = some '1'

instance (word : List Char) (position : Nat) : Decidable (OneFromEnd word position) :=
  inferInstanceAs (Decidable (_ ∧ _))

theorem not_oneFromEnd_zero (word : List Char) : ¬ OneFromEnd word 0 := by
  simp [OneFromEnd]

theorem not_oneFromEnd_replicate (count position : Nat) :
    ¬ OneFromEnd (List.replicate count '0') position := by
  rintro ⟨_, one⟩
  have zero := List.eq_of_mem_replicate (List.mem_of_getElem? one)
  exact absurd zero (by decide)

/-- Only the second of two words matters for positions in it. -/
theorem oneFromEnd_append_of_le {position : Nat} (first : List Char) {second : List Char}
    (within : position ≤ second.length) :
    OneFromEnd (first ++ second) position ↔ OneFromEnd second position := by
  have index : first.length + second.length - position =
      first.length + (second.length - position) := by omega
  rw [OneFromEnd, OneFromEnd, List.length_append, index, List.getElem?_append_right (by omega),
    Nat.add_sub_cancel_left, and_iff_right within, and_iff_right (by omega)]

/-- Further symbols move the earlier ones away from the end. -/
theorem oneFromEnd_append_add {position : Nat} (positive : 0 < position)
    (first second : List Char) :
    OneFromEnd (first ++ second) (position + second.length) ↔ OneFromEnd first position := by
  rw [OneFromEnd, OneFromEnd, List.length_append, Nat.add_le_add_iff_right,
    Nat.add_sub_add_right]
  apply and_congr_right
  intro within
  rw [List.getElem?_append_left (by omega)]

theorem oneFromEnd_append_singleton_one (word : List Char) (last : Char) :
    OneFromEnd (word ++ [last]) 1 ↔ last = '1' := by
  simp [OneFromEnd]

theorem oneFromEnd_append_singleton_succ {position : Nat} (positive : 0 < position)
    (word : List Char) (last : Char) :
    OneFromEnd (word ++ [last]) (position + 1) ↔ OneFromEnd word position :=
  oneFromEnd_append_add positive word [last]

theorem oneFromEnd_sub_iff {word : List Char} {index : Nat} (within : index < word.length) :
    OneFromEnd word (word.length - index) ↔ word[index] = '1' := by
  rw [OneFromEnd, Nat.sub_sub_self (Nat.le_of_lt within), List.getElem?_eq_getElem within,
    Option.some.injEq]
  exact and_iff_right (Nat.sub_le _ _)

/-- A word over zeros and ones is determined by its length and by where its ones are. -/
theorem eq_of_oneFromEnd_iff {first second : List Char}
    (firstBinary : ∀ value ∈ first, value = '0' ∨ value = '1')
    (secondBinary : ∀ value ∈ second, value = '0' ∨ value = '1')
    (sameLength : first.length = second.length)
    (sameOnes : ∀ position, 0 < position → position ≤ first.length →
      (OneFromEnd first position ↔ OneFromEnd second position)) :
    first = second := by
  apply List.ext_getElem sameLength
  intro index within within'
  have ones := sameOnes (first.length - index) (Nat.sub_pos_of_lt within) (Nat.sub_le _ _)
  rw [oneFromEnd_sub_iff within, sameLength, oneFromEnd_sub_iff within'] at ones
  rcases firstBinary _ (List.getElem_mem within) with zero | one
  · rcases secondBinary _ (List.getElem_mem within') with zero' | one'
    · rw [zero, zero']
    · rw [ones.2 one', one']
  · rw [one, ones.1 one]

/-! ## Active states -/

variable {position : Nat} {automaton : Automaton Char}

theorem CountsFromLast.isWord_iff (counts : CountsFromLast position automaton)
    (word : List Char) :
    automaton.alphabet.IsWord word ↔ ∀ value ∈ word, value = '0' ∨ value = '1' := by
  rw [Alphabet.IsWord, counts.symbols_eq]
  simp

theorem CountsFromLast.reading (counts : CountsFromLast position automaton) :
    ∀ edge ∈ automaton.edges, edge.label ≠ .epsilon := by
  rintro ⟨source, label, target⟩ listed
  rcases (counts.mem_edges_iff source label target).1 listed with ⟨value, rfl, _⟩
  nofun

theorem CountsFromLast.mem_read_iff (counts : CountsFromLast position automaton)
    (states : StateSet) (value : Char) (state : Nat) :
    state ∈ automaton.read states value ↔
      state ≤ position ∧ ∃ source, source ∈ states ∧ Move source value state := by
  rw [Automaton.read, counts.wellFormed.closure_eq_self counts.reading, Automaton.mem_move]
  constructor
  · rintro ⟨source, active, target⟩
    have listed := (automaton.mem_edges_iff ⟨source, .symbol value, state⟩).2 target
    rcases (counts.mem_edges_iff _ _ _).1 listed with ⟨_, ⟨⟩, move, within⟩
    exact ⟨within, source, active, move⟩
  · rintro ⟨within, source, active, move⟩
    have listed := (counts.mem_edges_iff _ _ _).2 ⟨value, rfl, move, within⟩
    exact ⟨source, active, (automaton.mem_edges_iff ⟨source, .symbol value, state⟩).1 listed⟩

/-- The first state is always active, and each later one after a one at its number from the end. -/
theorem CountsFromLast.mem_active_iff (counts : CountsFromLast position automaton)
    {word : List Char} (isWord : automaton.alphabet.IsWord word) (state : Nat) :
    state ∈ automaton.active word ↔ state = 0 ∨ state ≤ position ∧ OneFromEnd word state := by
  induction word using List.reverseRecOn generalizing state with
  | nil =>
      rw [Automaton.active_nil, Automaton.start,
        counts.wellFormed.closure_eq_self counts.reading, counts.mem_initial_iff]
      exact (or_iff_left fun later => not_oneFromEnd_replicate 0 state later.2).symm
  | append_singleton word last inductionHypothesis =>
      have binary := (counts.isWord_iff _).1 isWord last
        (List.mem_append_right _ List.mem_cons_self)
      rcases (automaton.alphabet.isWord_append_singleton word last).1 isWord with ⟨isWord, _⟩
      rw [Automaton.active_append_singleton, counts.mem_read_iff]
      constructor
      · rintro ⟨within, source, active, move⟩
        cases move with
        | waits _ => exact Or.inl rfl
        | guesses => exact Or.inr ⟨within, (oneFromEnd_append_singleton_one word '1').2 rfl⟩
        | counts guessed _ =>
            rcases (inductionHypothesis isWord source).1 active with rfl | ⟨_, one⟩
            · exact absurd guessed (Nat.lt_irrefl 0)
            · exact Or.inr ⟨within, (oneFromEnd_append_singleton_succ guessed word last).2 one⟩
      · rintro (rfl | ⟨within, one⟩)
        · exact ⟨Nat.zero_le position, 0, (inductionHypothesis isWord 0).2 (Or.inl rfl),
            .waits binary⟩
        · refine ⟨within, ?_⟩
          match state, within, one with
          | 0, _, one => exact absurd one (not_oneFromEnd_zero _)
          | 1, _, one =>
              rw [(oneFromEnd_append_singleton_one word last).1 one]
              exact ⟨0, (inductionHypothesis isWord 0).2 (Or.inl rfl), .guesses⟩
          | state + 2, within, one =>
              have before := (oneFromEnd_append_singleton_succ state.succ_pos word last).1 one
              exact ⟨state + 1,
                (inductionHypothesis isWord _).2 (Or.inr ⟨Nat.le_of_succ_le within, before⟩),
                .counts state.succ_pos binary⟩

/-- Some active state accepts exactly if there is a one at the position. -/
theorem CountsFromLast.intersects_active (counts : CountsFromLast position automaton)
    (positive : 0 < position) {word : List Char} (isWord : automaton.alphabet.IsWord word) :
    (automaton.active word).intersects automaton.accepting = decide (OneFromEnd word position) := by
  rw [Bool.eq_iff_iff, StateSet.intersects_iff, decide_eq_true_iff]
  simp only [counts.mem_accepting_iff, exists_eq_right, counts.mem_active_iff isWord]
  constructor
  · rintro (rfl | ⟨_, one⟩)
    · exact absurd positive (Nat.lt_irrefl 0)
    · exact one
  · intro one
    exact Or.inr ⟨Nat.le_refl position, one⟩

end WordAutomata.Family
