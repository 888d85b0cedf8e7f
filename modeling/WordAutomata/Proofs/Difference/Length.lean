import WordAutomata.Proofs.Difference
import WordAutomata.Proofs.Difference.Refinement
import WordAutomata.Proofs.Words

/-!
# Words on which two automata differ are short

Two deterministic automata are put side by side into one machine over the
alphabet of the first one.  Its states are those of both automata, and one more
to which missing edges and unknown symbols lead.  The automata differ on a word
exactly if it tells their initial states apart.  As the word that the comparison
finds is a shortest one, its length is bounded by the sum of the numbers of
states, and not only by their product.
-/

namespace WordAutomata.Dfa

variable {α : Type} [DecidableEq α]

/-- A state of one of two automata, or nowhere. -/
abbrev Place : Type :=
  Option (Nat ⊕ Nat)

/-- Where a symbol leads from a state of one of two automata. -/
def sideSuccessor? (left right : Dfa α) (value : α) : Nat ⊕ Nat → Place
  | .inl state => (left.successor? state value).map .inl
  | .inr state => (right.successor? state value).map .inr

/-- Two automata side by side; both of them read only symbols that the first one knows. -/
def sideBySide (left right : Dfa α) : DFA α Place where
  step place value :=
    if value ∈ left.automaton.alphabet.symbols then
      place.bind (sideSuccessor? left right value)
    else
      none
  start := some (.inl left.initial)
  accept := {place | left.acceptsAt (place.bind Sum.getLeft?) = true ∨
    right.acceptsAt (place.bind Sum.getRight?) = true}

/-- The states of both automata, and nowhere. -/
def sidePlaces (left right : Dfa α) : Set Place :=
  {place | ∀ side, place = some side →
    Sum.elim (· < left.automaton.size) (· < right.automaton.size) side}

variable {left right : Dfa α}

/-! ## Places -/

omit [DecidableEq α] in
theorem inl_mem_sidePlaces_iff (left right : Dfa α) (state : Nat) :
    some (.inl state) ∈ sidePlaces left right ↔ state < left.automaton.size := by
  simp [sidePlaces]

omit [DecidableEq α] in
theorem inr_mem_sidePlaces_iff (left right : Dfa α) (state : Nat) :
    some (.inr state) ∈ sidePlaces left right ↔ state < right.automaton.size := by
  simp [sidePlaces]

omit [DecidableEq α] in
theorem sidePlaces_eq_coe (left right : Dfa α) :
    sidePlaces left right =
      ↑(Finset.insertNone
        ((Finset.range left.automaton.size).disjSum (Finset.range right.automaton.size))) := by
  ext place
  rw [Finset.mem_coe, Finset.mem_insertNone]
  apply forall_congr'
  rintro (state | state)
  · simp
  · simp

omit [DecidableEq α] in
theorem finite_sidePlaces (left right : Dfa α) : (sidePlaces left right).Finite := by
  rw [sidePlaces_eq_coe]
  exact Finset.finite_toSet _

omit [DecidableEq α] in
theorem ncard_sidePlaces (left right : Dfa α) :
    (sidePlaces left right).ncard = left.automaton.size + right.automaton.size + 1 := by
  rw [sidePlaces_eq_coe, Set.ncard_coe_finset, Finset.card_insertNone, Finset.card_disjSum,
    Finset.card_range, Finset.card_range]

theorem step_of_mem {value : α} (known : value ∈ left.automaton.alphabet.symbols)
    (place : Place) :
    (sideBySide left right).step place value = place.bind (sideSuccessor? left right value) :=
  if_pos known

theorem step_of_not_mem {value : α} (unknown : value ∉ left.automaton.alphabet.symbols)
    (place : Place) :
    (sideBySide left right).step place value = none :=
  if_neg unknown

/-- No symbol leads out of the places. -/
theorem step_mem_sidePlaces (leftWellFormed : left.WellFormed)
    (rightWellFormed : right.WellFormed) :
    ∀ place ∈ sidePlaces left right, ∀ value,
      (sideBySide left right).step place value ∈ sidePlaces left right := by
  intro place _ value side stepped
  have known : value ∈ left.automaton.alphabet.symbols := by
    by_contra unknown
    rw [step_of_not_mem unknown] at stepped
    cases stepped
  rw [step_of_mem known] at stepped
  rcases Option.bind_eq_some_iff.1 stepped with ⟨source, _, moved⟩
  cases source with
  | inl state =>
      rcases Option.map_eq_some_iff.1 moved with ⟨target, found, rfl⟩
      exact leftWellFormed.successor?_lt found
  | inr state =>
      rcases Option.map_eq_some_iff.1 moved with ⟨target, found, rfl⟩
      exact rightWellFormed.successor?_lt found

/-! ## Words -/

/-- Only words over the alphabet of the first automaton lead anywhere. -/
theorem evalFrom_of_not_isWord (place : Place) {word : List α}
    (notWord : ¬ left.automaton.alphabet.IsWord word) :
    (sideBySide left right).evalFrom place word = none := by
  induction word using List.reverseRecOn with
  | nil => exact absurd left.automaton.alphabet.isWord_nil notWord
  | append_singleton word last inductionHypothesis =>
      rw [DFA.evalFrom_append_singleton]
      by_cases known : last ∈ left.automaton.alphabet.symbols
      · have notWord' : ¬ left.automaton.alphabet.IsWord word := fun isWord =>
          notWord ((left.automaton.alphabet.isWord_append_singleton word last).2 ⟨isWord, known⟩)
        rw [inductionHypothesis notWord', step_of_mem known]
        rfl
      · exact step_of_not_mem known _

/-- A word leads each of the automata where it leads in the machine of both. -/
theorem evalFrom_initial (left right : Dfa α) {word : List α}
    (isWord : left.automaton.alphabet.IsWord word) :
    (sideBySide left right).evalFrom (some (.inl left.initial)) word =
        (left.stateAfter word).map .inl ∧
      (sideBySide left right).evalFrom (some (.inr right.initial)) word =
        (right.stateAfter word).map .inr := by
  induction word using List.reverseRecOn with
  | nil => exact ⟨rfl, rfl⟩
  | append_singleton word last inductionHypothesis =>
      rcases (left.automaton.alphabet.isWord_append_singleton word last).1 isWord with
        ⟨isWord, known⟩
      rcases inductionHypothesis isWord with ⟨leftLeads, rightLeads⟩
      rw [DFA.evalFrom_append_singleton, DFA.evalFrom_append_singleton, leftLeads, rightLeads,
        stateAfter_append_singleton, stateAfter_append_singleton, step_of_mem known,
        step_of_mem known]
      constructor
      · cases left.stateAfter word <;> rfl
      · cases right.stateAfter word <;> rfl

theorem map_inl_mem_accept (left right : Dfa α) (place : Option Nat) :
    place.map .inl ∈ (sideBySide left right).accept ↔ left.acceptsAt place = true := by
  cases place <;> simp [sideBySide, acceptsAt]

theorem map_inr_mem_accept (left right : Dfa α) (place : Option Nat) :
    place.map .inr ∈ (sideBySide left right).accept ↔ right.acceptsAt place = true := by
  cases place <;> simp [sideBySide, acceptsAt]

/-- The automata differ on the words that tell their initial states apart. -/
theorem differs_iff_tellsApart (left right : Dfa α) (word : List α) :
    Differs left right word ↔
      TellsApart (sideBySide left right) (some (.inl left.initial)) (some (.inr right.initial))
        word := by
  by_cases isWord : left.automaton.alphabet.IsWord word
  · rcases evalFrom_initial left right isWord with ⟨leftLeads, rightLeads⟩
    rw [TellsApart, DFA.mem_acceptsFrom, DFA.mem_acceptsFrom, leftLeads, rightLeads,
      map_inl_mem_accept, map_inr_mem_accept, acceptsAt_stateAfter_iff, acceptsAt_stateAfter_iff]
    exact and_iff_right isWord
  · rw [TellsApart, DFA.mem_acceptsFrom, DFA.mem_acceptsFrom, evalFrom_of_not_isWord _ isWord,
      evalFrom_of_not_isWord _ isWord]
    constructor
    · exact fun differs => absurd differs.1 isWord
    · exact fun apart => absurd Iff.rfl apart

/-! ## Lengths -/

/-- The word that is found is shorter than the number of places by two. -/
theorem length_distinguishingWord?_lt (leftWellFormed : left.WellFormed)
    (rightWellFormed : right.WellFormed) {word : List α}
    (found : distinguishingWord? left right = some word) :
    word.length < left.automaton.size + right.automaton.size := by
  rcases (distinguishingWord?_eq_some_iff leftWellFormed rightWellFormed word).1 found with
    ⟨differs, least⟩
  have leftPlace := (inl_mem_sidePlaces_iff left right _).2 leftWellFormed.initial_lt
  have rightPlace := (inr_mem_sidePlaces_iff left right _).2 rightWellFormed.initial_lt
  have bounded : word.length + 2 ≤ (sidePlaces left right).ncard := by
    apply length_add_two_le_ncard (finite_sidePlaces left right)
      (step_mem_sidePlaces leftWellFormed rightWellFormed) leftPlace rightPlace
    · exact (differs_iff_tellsApart left right word).1 differs
    · intro other apart
      exact (least other ((differs_iff_tellsApart left right other).2 apart)).length_le
  rw [ncard_sidePlaces] at bounded
  omega

/--
The least word on which two automata differ is shorter than the sum of their
numbers of states.  So automata that agree on all such words are equivalent.
-/
theorem distinguishingWord_is_short (left right : Dfa α) (leftWellFormed : left.WellFormed)
    (rightWellFormed : right.WellFormed) :
    (∀ word, distinguishingWord? left right = some word →
      word.length ≤ left.automaton.size + right.automaton.size - 1) ∧
      ((∀ word, left.automaton.alphabet.IsWord word →
          word.length ≤ left.automaton.size + right.automaton.size - 1 →
            (left.decides word = .ok true ↔ right.decides word = .ok true)) →
        isEquivalent left right = true) := by
  have short : ∀ word, distinguishingWord? left right = some word →
      word.length ≤ left.automaton.size + right.automaton.size - 1 := by
    intro word found
    exact Nat.le_sub_one_of_lt (length_distinguishingWord?_lt leftWellFormed rightWellFormed found)
  refine ⟨short, ?_⟩
  intro agree
  rw [isEquivalent, Option.isNone_iff_eq_none]
  cases found : distinguishingWord? left right with
  | none => rfl
  | some word =>
      have least := distinguishingWord?_eq_some_iff leftWellFormed rightWellFormed word
      rcases (least.1 found).1 with ⟨isWord, different⟩
      exact absurd (agree word isWord (short word found)) different

/-- The bound is attained in one direction; in the other one it justifies a check of short words. -/
theorem distinguishingWord_is_short_oddLetters :
    undoable.WellFormed ∧ oddLetters.WellFormed ∧
      distinguishingWord? undoable oddLetters = some ['a', 'b', 'a'] ∧
      ['a', 'b', 'a'].length ≤ undoable.automaton.size + oddLetters.automaton.size - 1 ∧
      isEquivalent oddLetters undoable = true := by
  have undoableWellFormed : undoable.WellFormed := by decide
  have oddLettersWellFormed : oddLetters.WellFormed := by decide
  have found : distinguishingWord? undoable oddLetters = some ['a', 'b', 'a'] := by decide
  have agree : ∀ length ≤ 3, ∀ word ∈ oddLetters.automaton.alphabet.words length,
      (oddLetters.decides word = .ok true ↔ undoable.decides word = .ok true) := by decide
  have forward := distinguishingWord_is_short undoable oddLetters undoableWellFormed
    oddLettersWellFormed
  have backward := distinguishingWord_is_short oddLetters undoable oddLettersWellFormed
    undoableWellFormed
  refine ⟨undoableWellFormed, oddLettersWellFormed, found, forward.1 _ found, backward.2 ?_⟩
  intro word isWord short
  exact agree word.length short word ((Alphabet.mem_words_iff _ _ word).2 ⟨isWord, rfl⟩)

end WordAutomata.Dfa
