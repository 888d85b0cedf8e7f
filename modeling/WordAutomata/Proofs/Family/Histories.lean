import WordAutomata.Proofs.Difference
import WordAutomata.Proofs.Dfa.Reachable
import WordAutomata.Proofs.Family.LastSymbols
import WordAutomata.Proofs.SubsetConstruction.Runs
import WordAutomata.Proofs.Words

/-!
# How much a deterministic counter has to remember

Looking for a one at a position from the end takes few states if they may be
guessed.  Without guessing, all words of that length have to be told apart,
because the symbols that follow decide which one of their symbols matters.  The
compiled automaton has one state for each of these words, which stands for all
words that end in it, and no equivalent automaton has fewer states.
-/

namespace WordAutomata.Family

variable {position : Nat} {automaton : Automaton Char}

theorem CountsFromLast.length_words (counts : CountsFromLast position automaton) (length : Nat) :
    (automaton.alphabet.words length).length = 2 ^ length := by
  rw [Alphabet.length_words, Alphabet.size, counts.symbols_eq]
  rfl

/-! ## Histories -/

/-- The last symbols of a word; there are zeros before the word if it is too short. -/
def history (position : Nat) (word : List Char) : List Char :=
  (List.replicate position '0' ++ word).drop word.length

theorem length_history (position : Nat) (word : List Char) :
    (history position word).length = position := by
  simp [history]

/-- A history has the same ones as the word. -/
theorem oneFromEnd_history_iff {state : Nat} (within : state ≤ position) (word : List Char) :
    OneFromEnd (history position word) state ↔ OneFromEnd word state := by
  have within' : state ≤ (history position word).length := by rwa [length_history]
  have shape := List.take_append_drop word.length (List.replicate position '0' ++ word)
  rw [← oneFromEnd_append_of_le _ within', history, shape]
  rcases Nat.lt_or_ge word.length state with outside | inside
  · -- The zeros before the word are not ones.
    have shift : state = state - word.length + word.length := by omega
    rw [shift, oneFromEnd_append_add (Nat.sub_pos_of_lt outside)]
    constructor
    · exact fun one => absurd one (not_oneFromEnd_replicate _ _)
    · exact fun one => absurd one.1 (by omega)
  · exact oneFromEnd_append_of_le _ inside

theorem CountsFromLast.isWord_history (counts : CountsFromLast position automaton)
    {word : List Char} (isWord : automaton.alphabet.IsWord word) :
    automaton.alphabet.IsWord (history position word) := by
  rw [counts.isWord_iff] at isWord ⊢
  intro value member
  rcases List.mem_append.1 (List.mem_of_mem_drop member) with padding | old
  · exact Or.inl (List.eq_of_mem_replicate padding)
  · exact isWord value old

/-- The active states only depend on the history. -/
theorem CountsFromLast.active_history (counts : CountsFromLast position automaton)
    {word : List Char} (isWord : automaton.alphabet.IsWord word) :
    automaton.active (history position word) = automaton.active word := by
  ext state
  rw [counts.mem_active_iff (counts.isWord_history isWord), counts.mem_active_iff isWord]
  apply or_congr_right
  exact and_congr_right fun within => oneFromEnd_history_iff within word

/-- Histories with the same ones are the same. -/
theorem CountsFromLast.eq_of_mem_words (counts : CountsFromLast position automaton)
    {first second : List Char} (firstListed : first ∈ automaton.alphabet.words position)
    (secondListed : second ∈ automaton.alphabet.words position)
    (sameOnes : ∀ state, 0 < state → state ≤ position →
      (OneFromEnd first state ↔ OneFromEnd second state)) :
    first = second := by
  rcases (Alphabet.mem_words_iff _ _ _).1 firstListed with ⟨isWord, rfl⟩
  rcases (Alphabet.mem_words_iff _ _ _).1 secondListed with ⟨isWord', counted⟩
  exact eq_of_oneFromEnd_iff ((counts.isWord_iff _).1 isWord) ((counts.isWord_iff _).1 isWord')
    counted.symm sameOnes

/-- The active states determine the history. -/
theorem CountsFromLast.eq_of_active_eq (counts : CountsFromLast position automaton)
    {first second : List Char} (firstListed : first ∈ automaton.alphabet.words position)
    (secondListed : second ∈ automaton.alphabet.words position)
    (same : automaton.active first = automaton.active second) :
    first = second := by
  have isWord := ((Alphabet.mem_words_iff _ _ _).1 firstListed).1
  have isWord' := ((Alphabet.mem_words_iff _ _ _).1 secondListed).1
  apply counts.eq_of_mem_words firstListed secondListed
  intro state positive within
  have members : state ∈ automaton.active first ↔ state ∈ automaton.active second := by rw [same]
  rw [counts.mem_active_iff isWord, counts.mem_active_iff isWord'] at members
  simpa [Nat.ne_of_gt positive, within] using members

/-! ## The compiled automaton -/

/-- The sets that the compiled automaton has for its states are those of the histories. -/
theorem CountsFromLast.subsets_perm (counts : CountsFromLast position automaton) :
    List.Perm automaton.subsetSearch.nodes
      ((automaton.alphabet.words position).map automaton.active) := by
  have distinct : ((automaton.alphabet.words position).map automaton.active).Nodup := by
    apply (automaton.alphabet.nodup_words position).map_on
    exact fun _ first _ second => counts.eq_of_active_eq first second
  apply (List.perm_ext_iff_of_nodup counts.wellFormed.nodup_subsets distinct).2
  intro subset
  rw [counts.wellFormed.mem_subsets_iff, List.mem_map]
  constructor
  · rintro ⟨word, isWord, rfl⟩
    refine ⟨history position word, ?_, counts.active_history isWord⟩
    exact (Alphabet.mem_words_iff _ _ _).2
      ⟨counts.isWord_history isWord, length_history position word⟩
  · rintro ⟨word, listed, rfl⟩
    exact ⟨word, ((Alphabet.mem_words_iff _ _ _).1 listed).1, rfl⟩

theorem CountsFromLast.size_subsetAutomaton (counts : CountsFromLast position automaton) :
    automaton.subsetAutomaton.automaton.size = 2 ^ position := by
  rw [Automaton.size_subsetAutomaton, counts.subsets_perm.length_eq, List.length_map,
    counts.length_words]

/-! ## Equivalent automata -/

/-- The one at the position from the end is found in a history that is followed by zeros. -/
theorem oneFromEnd_append_zeros_iff {state : Nat} (positive : 0 < state)
    (within : state ≤ position) (word : List Char) :
    OneFromEnd (word ++ List.replicate (position - state) '0') position ↔
      OneFromEnd word state := by
  have shifted := oneFromEnd_append_add positive word (List.replicate (position - state) '0')
  rwa [List.length_replicate, Nat.add_sub_cancel' within] at shifted

theorem CountsFromLast.isWord_append_zeros (counts : CountsFromLast position automaton)
    {word : List Char} (isWord : automaton.alphabet.IsWord word) (count : Nat) :
    automaton.alphabet.IsWord (word ++ List.replicate count '0') := by
  refine (automaton.alphabet.isWord_append _ _).2 ⟨isWord, (counts.isWord_iff _).2 ?_⟩
  exact fun value padding => Or.inl (List.eq_of_mem_replicate padding)

/-- Of the words over the alphabet, those with a one at the position from the end are accepted. -/
def Finds (alphabet : Alphabet Char) (position : Nat) (dfa : Dfa Char) : Prop :=
  ∀ word, alphabet.IsWord word → (dfa.decides word = .ok true ↔ OneFromEnd word position)

/-- No word over the alphabet gets stuck, as each is the beginning of some accepted word. -/
theorem CountsFromLast.stateAfter_ne_none (counts : CountsFromLast position automaton)
    (positive : 0 < position) {dfa : Dfa Char} (finds : Finds automaton.alphabet position dfa)
    {word : List Char} (isWord : automaton.alphabet.IsWord word) :
    dfa.stateAfter word ≠ none := by
  intro lost
  have isWord' : automaton.alphabet.IsWord (word ++ ['1']) := by
    rw [Alphabet.isWord_append_singleton, counts.symbols_eq]
    exact ⟨isWord, by decide⟩
  have one := (oneFromEnd_append_zeros_iff Nat.one_pos positive (word ++ ['1'])).2
    ((oneFromEnd_append_singleton_one word '1').2 rfl)
  have accepted := (finds _ (counts.isWord_append_zeros isWord' _)).2 one
  rw [← Dfa.acceptsAt_stateAfter_iff, List.append_assoc,
    Dfa.stateAfter_append_eq_none lost] at accepted
  cases accepted

/-- Words that lead to one state have the same ones, as further zeros show. -/
theorem CountsFromLast.oneFromEnd_congr (counts : CountsFromLast position automaton)
    {dfa : Dfa Char} (finds : Finds automaton.alphabet position dfa) {first second : List Char}
    (isWord : automaton.alphabet.IsWord first) (isWord' : automaton.alphabet.IsWord second)
    (together : dfa.stateAfter first = dfa.stateAfter second) {state : Nat}
    (positive : 0 < state) (within : state ≤ position) :
    OneFromEnd first state ↔ OneFromEnd second state := by
  rw [← oneFromEnd_append_zeros_iff positive within first,
    ← oneFromEnd_append_zeros_iff positive within second,
    ← finds _ (counts.isWord_append_zeros isWord _),
    ← finds _ (counts.isWord_append_zeros isWord' _),
    ← Dfa.acceptsAt_stateAfter_iff, ← Dfa.acceptsAt_stateAfter_iff,
    dfa.stateAfter_append_congr together]

/-- An automaton that finds the ones tells all histories apart. -/
theorem CountsFromLast.two_pow_le_size (counts : CountsFromLast position automaton)
    (positive : 0 < position) {dfa : Dfa Char} (wellFormed : dfa.WellFormed)
    (finds : Finds automaton.alphabet position dfa) :
    2 ^ position ≤ dfa.automaton.size := by
  rw [← counts.length_words position]
  apply wellFormed.length_le_size (automaton.alphabet.nodup_words position)
  · intro word listed
    have isWord := ((Alphabet.mem_words_iff _ _ _).1 listed).1
    exact counts.stateAfter_ne_none positive finds isWord
  · intro first firstListed second secondListed together
    have isWord := ((Alphabet.mem_words_iff _ _ _).1 firstListed).1
    have isWord' := ((Alphabet.mem_words_iff _ _ _).1 secondListed).1
    apply counts.eq_of_mem_words firstListed secondListed
    intro state positive within
    exact counts.oneFromEnd_congr finds isWord isWord' together positive within

/--
The automaton that finds a one at a position from the end has one state more
than the position.  Compiled, it has as many states as there are words of that
length, and every equivalent deterministic automaton, partial or total, has at
least as many.
-/
theorem nthFromLastIsOne_needs_histories (position : Nat) (positive : 0 < position) :
    ∃ automaton, nthFromLastIsOne position = .ok automaton ∧
      automaton.alphabet.symbols = ['0', '1'] ∧
      automaton.size = position + 1 ∧
      (∀ word, automaton.alphabet.IsWord word →
        automaton.decides word = .ok (decide (OneFromEnd word position))) ∧
      ∃ compiled, automaton.determinize = .ok compiled ∧
        compiled.automaton.size = 2 ^ position ∧
        ∀ dfa : Dfa Char, dfa.WellFormed → compiled.isEquivalent dfa = true →
          2 ^ position ≤ dfa.automaton.size := by
  rcases exists_nthFromLastIsOne positive with ⟨automaton, built, counts⟩
  have something : automaton.initial ≠ ∅ := by
    intro nothing
    have initial := (counts.mem_initial_iff 0).2 rfl
    rw [nothing] at initial
    exact StateSet.not_mem_empty 0 initial
  refine ⟨automaton, built, counts.symbols_eq, counts.size_eq, ?_, automaton.subsetAutomaton,
    automaton.determinize_of_initial_ne_empty something, counts.size_subsetAutomaton, ?_⟩
  · intro word isWord
    rw [automaton.decides_of_isWord isWord, counts.intersects_active positive isWord]
  · intro dfa wellFormed equivalent
    apply counts.two_pow_le_size positive wellFormed
    intro word isWord
    rw [← Dfa.decides_iff_of_isEquivalent equivalent isWord,
      counts.wellFormed.decides_subsetAutomaton isWord, counts.intersects_active positive isWord]
    simp

/-- Remembers the last two symbols, the later one as the last binary digit; it never reads 'x'. -/
def lastTwo : Dfa Char where
  automaton :=
    { alphabet := ⟨['1', 'x', '0'], by decide⟩
      states :=
        [⟨"00", [.singleton 1, ∅, .singleton 0], ∅⟩, ⟨"01", [.singleton 3, ∅, .singleton 2], ∅⟩,
          ⟨"10", [.singleton 1, ∅, .singleton 0], ∅⟩, ⟨"11", [.singleton 3, ∅, .singleton 2], ∅⟩]
      initial := .singleton 0
      accepting := .ofList [2, 3] }
  initial := 0
  subsets := none

/-- A partial automaton over more symbols is equivalent, and attains the bound. -/
theorem nthFromLastIsOne_needs_histories_lastTwo :
    lastTwo.WellFormed ∧ lastTwo.isTotal = false ∧ lastTwo.automaton.size = 4 ∧
      ∃ automaton compiled, nthFromLastIsOne 2 = .ok automaton ∧
        automaton.decides ['1', '0'] = .ok true ∧ automaton.decides ['1'] = .ok false ∧
        automaton.determinize = .ok compiled ∧ compiled.isEquivalent lastTwo = true ∧
        2 ^ 2 ≤ lastTwo.automaton.size := by
  have wellFormed : lastTwo.WellFormed := by decide
  rcases nthFromLastIsOne_needs_histories 2 (by decide) with
    ⟨automaton, built, symbols, _, decides, compiled, determinized, _, minimal⟩
  have isWord : automaton.alphabet.IsWord ['1'] := by simp [Alphabet.IsWord, symbols]
  have isWord' : automaton.alphabet.IsWord ['1', '0'] := by simp [Alphabet.IsWord, symbols]
  have equivalent : compiled.isEquivalent lastTwo = true := by
    have computed : ((nthFromLastIsOne 2).toOption.bind fun automaton =>
        automaton.determinize.toOption.map fun compiled => compiled.isEquivalent lastTwo) =
          some true := by decide +kernel
    rw [built] at computed
    simpa [Except.toOption, determinized] using computed
  exact ⟨wellFormed, by decide, by decide, automaton, compiled, built,
    decides ['1', '0'] isWord', decides ['1'] isWord, determinized, equivalent,
    minimal lastTwo wellFormed equivalent⟩

end WordAutomata.Family
