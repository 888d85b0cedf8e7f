import Mathlib.Data.List.Infix
import WordAutomata.Proofs.Family.LastSymbols
import WordAutomata.Proofs.ReadyMade.Machines

/-!
# The languages of the ready-made machines

For each state of a ready-made machine there is a property of words such that
the state is active after exactly the words with the property.  Which properties
a word with one more symbol has depends on the properties of the word, in the
way in which the symbol leads from state to state.  The language of a machine is
the property of its accepting state.
-/

namespace WordAutomata

namespace Automaton

variable {α : Type} [DecidableEq α] {automaton : Automaton α}

/--
The steps are all the ways in which reading a symbol leads from a state to a
state, with the silent edges behind the symbol included.
-/
def HasSteps (automaton : Automaton α) (steps : List (Nat × α × Nat)) : Prop :=
  (∀ step ∈ steps, step.1 < automaton.size) ∧
    ∀ source ∈ automaton.ids, ∀ value ∈ automaton.alphabet.symbols,
      automaton.read (.singleton source) value =
        .ofList ((steps.filter fun step => step.1 = source ∧ step.2.1 = value).map (·.2.2))

instance (automaton : Automaton α) (steps : List (Nat × α × Nat)) :
    Decidable (automaton.HasSteps steps) :=
  inferInstanceAs (Decidable (_ ∧ _))

theorem WellFormed.mem_read_iff_of_hasSteps (wellFormed : automaton.WellFormed)
    {steps : List (Nat × α × Nat)} (hasSteps : automaton.HasSteps steps) {value : α}
    (known : value ∈ automaton.alphabet.symbols) (states : StateSet) (target : Nat) :
    target ∈ automaton.read states value ↔
      ∃ source, source ∈ states ∧ (source, value, target) ∈ steps := by
  have single : ∀ source, target ∈ automaton.read (.singleton source) value ↔
      (source, value, target) ∈ steps := by
    intro source
    rcases Nat.lt_or_ge source automaton.size with present | missing
    · rw [hasSteps.2 source (List.mem_range.2 present) value known, StateSet.mem_ofList]
      simp
    · rw [wellFormed.mem_read_iff]
      simp only [StateSet.mem_singleton, exists_eq_left,
        automaton.targets_eq_empty_of_size_le _ missing, StateSet.not_mem_empty, false_and,
        exists_false, false_iff]
      intro listed
      exact absurd (hasSteps.1 _ listed) (Nat.not_lt_of_ge missing)
  simp only [← single, wellFormed.mem_read_iff, StateSet.mem_singleton, exists_eq_left]

/-- Properties of words that follow the steps tell which states are active. -/
theorem WellFormed.mem_active_iff_of_hasSteps (wellFormed : automaton.WellFormed)
    {steps : List (Nat × α × Nat)} (hasSteps : automaton.HasSteps steps)
    {leads : List α → Nat → Prop} (nil : ∀ state, state ∈ automaton.start ↔ leads [] state)
    (append_singleton : ∀ word, ∀ last ∈ automaton.alphabet.symbols, ∀ state,
      leads (word ++ [last]) state ↔
        ∃ step ∈ steps, leads word step.1 ∧ step.2 = (last, state))
    {word : List α} (isWord : automaton.alphabet.IsWord word) (state : Nat) :
    state ∈ automaton.active word ↔ leads word state := by
  induction word using List.reverseRecOn generalizing state with
  | nil => exact nil state
  | append_singleton word last inductionHypothesis =>
      rcases (automaton.alphabet.isWord_append_singleton word last).1 isWord with
        ⟨isWord, known⟩
      rw [active_append_singleton, wellFormed.mem_read_iff_of_hasSteps hasSteps known,
        append_singleton word last known]
      constructor
      · rintro ⟨source, active, listed⟩
        exact ⟨(source, last, state), listed, (inductionHypothesis isWord source).1 active, rfl⟩
      · rintro ⟨⟨source, label⟩, listed, active, rfl⟩
        exact ⟨source, (inductionHypothesis isWord source).2 active, listed⟩

end Automaton

/-! ## Words with one more symbol -/

theorem suffix_append_singleton_iff (front word : List Char) (final last : Char) :
    front ++ [final] <:+ word ++ [last] ↔ front <:+ word ∧ last = final := by
  rw [List.suffix_concat_iff]
  constructor
  · rintro (empty | ⟨shorter, equal, ending⟩)
    · exact absurd empty (List.append_ne_nil_of_right_ne_nil front (List.cons_ne_nil _ _))
    · rcases List.append_singleton_inj.1 equal with ⟨rfl, rfl⟩
      exact ⟨ending, rfl⟩
  · rintro ⟨ending, rfl⟩
    exact Or.inr ⟨front, rfl, ending⟩

theorem exists_append_singleton_eq_replicate_iff (value : Char) (word : List Char) (last : Char) :
    (∃ count, word ++ [last] = List.replicate count value) ↔
      (∃ count, word = List.replicate count value) ∧ last = value := by
  constructor
  · rintro ⟨count, equal⟩
    cases count with
    | zero => exact absurd equal (List.append_ne_nil_of_right_ne_nil word (List.cons_ne_nil _ _))
    | succ count =>
        rw [List.replicate_succ'] at equal
        rcases List.append_singleton_inj.1 equal with ⟨rfl, rfl⟩
        exact ⟨⟨count, rfl⟩, rfl⟩
  · rintro ⟨⟨count, rfl⟩, rfl⟩
    exact ⟨count + 1, List.replicate_succ'.symm⟩

namespace ReadyMade

/-- The words over the alphabet of a ready-made machine that it is there to accept. -/
def Language : ReadyMade → List Char → Prop
  | endsInOne, word => word = [] ∨ ['1'] <:+ word
  | zerosThenOnes, word =>
      ∃ zeros ones, word = List.replicate zeros '0' ++ List.replicate ones '1'
  | containsOneZeroOne, word => ['1', '0', '1'] <:+: word
  | epsilonCycle, word => ∃ count, word = List.replicate count 'a' ++ ['b']
  | thirdFromLast, word => Family.OneFromEnd word 3

theorem suffix_one_append_singleton_iff (word : List Char) (last : Char) :
    ['1'] <:+ word ++ [last] ↔ last = '1' :=
  (suffix_append_singleton_iff [] word '1' last).trans (and_iff_right List.nil_suffix)

theorem suffix_oneZero_append_singleton_iff (word : List Char) (last : Char) :
    ['1', '0'] <:+ word ++ [last] ↔ ['1'] <:+ word ∧ last = '0' :=
  suffix_append_singleton_iff ['1'] word '0' last

theorem language_endsInOne_append_singleton (word : List Char) (last : Char) :
    endsInOne.Language (word ++ [last]) ↔ last = '1' := by
  rw [Language, suffix_one_append_singleton_iff]
  exact or_iff_right (List.append_ne_nil_of_right_ne_nil word (List.cons_ne_nil _ _))

theorem language_zerosThenOnes_append_singleton (word : List Char) (last : Char) :
    zerosThenOnes.Language (word ++ [last]) ↔
      (∃ zeros, word = List.replicate zeros '0') ∧ last = '0' ∨
        zerosThenOnes.Language word ∧ last = '1' := by
  constructor
  · rintro ⟨zeros, ones, equal⟩
    cases ones with
    | zero =>
        rw [List.replicate_zero, List.append_nil] at equal
        exact Or.inl ((exists_append_singleton_eq_replicate_iff _ _ _).1 ⟨zeros, equal⟩)
    | succ ones =>
        rw [List.replicate_succ', ← List.append_assoc] at equal
        rcases List.append_singleton_inj.1 equal with ⟨rfl, rfl⟩
        exact Or.inr ⟨⟨zeros, ones, rfl⟩, rfl⟩
  · rintro (⟨⟨zeros, rfl⟩, rfl⟩ | ⟨⟨zeros, ones, rfl⟩, rfl⟩)
    · exact ⟨zeros + 1, 0, by rw [List.replicate_zero, List.append_nil, List.replicate_succ']⟩
    · exact ⟨zeros, ones + 1, by rw [List.replicate_succ', List.append_assoc]⟩

theorem language_containsOneZeroOne_append_singleton (word : List Char) (last : Char) :
    containsOneZeroOne.Language (word ++ [last]) ↔
      ['1', '0'] <:+ word ∧ last = '1' ∨ containsOneZeroOne.Language word := by
  rw [Language, List.infix_concat_iff]
  exact or_congr (suffix_append_singleton_iff ['1', '0'] word '1' last) Iff.rfl

theorem language_epsilonCycle_append_singleton (word : List Char) (last : Char) :
    epsilonCycle.Language (word ++ [last]) ↔
      (∃ count, word = List.replicate count 'a') ∧ last = 'b' := by
  constructor
  · rintro ⟨count, equal⟩
    rcases List.append_singleton_inj.1 equal with ⟨rfl, rfl⟩
    exact ⟨⟨count, rfl⟩, rfl⟩
  · rintro ⟨⟨count, rfl⟩, rfl⟩
    exact ⟨count, rfl⟩

/-! ## Active states -/

/-- The words after which a state of a ready-made machine is active. -/
def LeadsTo : ReadyMade → List Char → Nat → Prop
  | endsInOne, word, 0 => endsInOne.Language word
  | endsInOne, word, 1 => ¬ endsInOne.Language word
  | endsInOne, _, _ + 2 => False
  | zerosThenOnes, word, 0 => ∃ zeros, word = List.replicate zeros '0'
  | zerosThenOnes, word, 1 => zerosThenOnes.Language word
  | zerosThenOnes, _, _ + 2 => False
  | containsOneZeroOne, _, 0 => True
  | containsOneZeroOne, word, 1 => ['1'] <:+ word
  | containsOneZeroOne, word, 2 => ['1', '0'] <:+ word
  | containsOneZeroOne, word, 3 => containsOneZeroOne.Language word
  | containsOneZeroOne, _, _ + 4 => False
  -- The first three states are on the silent cycle, so they are active together.
  | epsilonCycle, word, 0 | epsilonCycle, word, 1 | epsilonCycle, word, 2 =>
      ∃ count, word = List.replicate count 'a'
  | epsilonCycle, word, 3 => epsilonCycle.Language word
  | epsilonCycle, _, _ + 4 => False
  | thirdFromLast, word, state => state = 0 ∨ state ≤ 3 ∧ Family.OneFromEnd word state

/-- The states in which the machine stands at first. -/
def starts : ReadyMade → List Nat
  | endsInOne | containsOneZeroOne | thirdFromLast => [0]
  | zerosThenOnes => [0, 1]
  | epsilonCycle => [0, 1, 2]

/-- What a symbol leads to from each state, the silent edges behind it included. -/
def steps : ReadyMade → List (Nat × Char × Nat)
  | endsInOne => [(0, '0', 1), (0, '1', 0), (1, '0', 1), (1, '1', 0)]
  | zerosThenOnes => [(0, '0', 0), (0, '0', 1), (1, '1', 1)]
  | containsOneZeroOne =>
      [(0, '0', 0), (0, '1', 0), (0, '1', 1), (1, '0', 2), (2, '1', 3), (3, '0', 3), (3, '1', 3)]
  | epsilonCycle => [(1, 'a', 0), (1, 'a', 1), (1, 'a', 2), (2, 'b', 3)]
  | thirdFromLast =>
      [(0, '0', 0), (0, '1', 0), (0, '1', 1), (1, '0', 2), (1, '1', 2), (2, '0', 3), (2, '1', 3)]

theorem start_resolved (ready : ReadyMade) :
    ready.resolved.automaton.start = .ofList ready.starts := by
  cases ready <;> decide +kernel

theorem hasSteps_resolved (ready : ReadyMade) :
    ready.resolved.automaton.HasSteps ready.steps := by
  cases ready <;> decide +kernel

theorem mem_starts_iff (ready : ReadyMade) (state : Nat) :
    state ∈ ready.starts ↔ ready.LeadsTo [] state := by
  cases ready with
  | endsInOne | zerosThenOnes =>
      match state with
      | 0 | 1 | _ + 2 => simp [starts, LeadsTo, Language]
  | containsOneZeroOne | epsilonCycle =>
      match state with
      | 0 | 1 | 2 | 3 | _ + 4 => simp [starts, LeadsTo, Language]
  | thirdFromLast =>
      rw [starts, LeadsTo, List.mem_singleton]
      exact (or_iff_left fun later => Family.not_oneFromEnd_replicate 0 state later.2).symm

/-- A word with one more symbol leads to where the symbol leads to behind the word. -/
theorem leadsTo_append_singleton_iff (ready : ReadyMade) (word : List Char) {last : Char}
    (known : last ∈ ready.description.alphabet) (state : Nat) :
    ready.LeadsTo (word ++ [last]) state ↔
      ∃ step ∈ ready.steps, ready.LeadsTo word step.1 ∧ step.2 = (last, state) := by
  cases ready
  all_goals
    simp only [steps, List.exists_mem_cons_iff, List.not_mem_nil, false_and, exists_false,
      or_false, Prod.mk.injEq]
  -- Each state has its own sources behind each of the symbols.
  case endsInOne =>
    rcases List.mem_pair.1 known with rfl | rfl
    all_goals
      match state with
      | 0 | 1 | _ + 2 => simp [LeadsTo, language_endsInOne_append_singleton, em]
  case zerosThenOnes =>
    rcases List.mem_pair.1 known with rfl | rfl
    all_goals
      match state with
      | 0 | 1 | _ + 2 =>
        simp [LeadsTo, exists_append_singleton_eq_replicate_iff,
          language_zerosThenOnes_append_singleton]
  case containsOneZeroOne =>
    rcases List.mem_pair.1 known with rfl | rfl
    all_goals
      match state with
      | 0 | 1 | 2 | 3 | _ + 4 =>
        simp [LeadsTo, suffix_oneZero_append_singleton_iff,
          language_containsOneZeroOne_append_singleton]
  case epsilonCycle =>
    rcases List.mem_pair.1 known with rfl | rfl
    all_goals
      match state with
      | 0 | 1 | 2 | 3 | _ + 4 =>
        simp [LeadsTo, exists_append_singleton_eq_replicate_iff,
          language_epsilonCycle_append_singleton]
  case thirdFromLast =>
    rcases List.mem_pair.1 known with rfl | rfl
    all_goals
      match state with
      | 0 | 1 | 2 | 3 | _ + 4 =>
        simp [LeadsTo, Family.not_oneFromEnd_zero, Family.oneFromEnd_append_singleton_one,
          Family.oneFromEnd_append_singleton_succ]

theorem mem_active_iff (ready : ReadyMade) {word : List Char}
    (isWord : ready.resolved.automaton.alphabet.IsWord word) (state : Nat) :
    state ∈ ready.resolved.automaton.active word ↔ ready.LeadsTo word state := by
  refine ready.wellFormed_automaton_resolved.mem_active_iff_of_hasSteps ready.hasSteps_resolved
    (fun state => ?_) (fun word last known state => ?_) isWord state
  · rw [start_resolved, StateSet.mem_ofList]
    exact ready.mem_starts_iff state
  · rw [symbols_resolved] at known
    exact ready.leadsTo_append_singleton_iff word known state

/-- Some active state is accepting exactly after the words of the language. -/
theorem intersects_active_iff (ready : ReadyMade) {word : List Char}
    (isWord : ready.resolved.automaton.alphabet.IsWord word) :
    (ready.resolved.automaton.active word).intersects ready.resolved.automaton.accepting = true ↔
      ready.Language word := by
  have single : ∀ state, ready.resolved.automaton.accepting = .singleton state →
      (ready.LeadsTo word state ↔ ready.Language word) →
      ((ready.resolved.automaton.active word).intersects
        ready.resolved.automaton.accepting = true ↔ ready.Language word) := by
    intro state accepting language
    rw [StateSet.intersects_iff, accepting, ← language, ← ready.mem_active_iff isWord]
    simp only [StateSet.mem_singleton, exists_eq_right]
  cases ready with
  | endsInOne => exact single 0 rfl Iff.rfl
  | zerosThenOnes => exact single 1 rfl Iff.rfl
  | containsOneZeroOne => exact single 3 rfl Iff.rfl
  | epsilonCycle => exact single 3 rfl Iff.rfl
  | thirdFromLast => exact single 3 rfl (by simp [LeadsTo, Language])

/-! ## Verdicts -/

/--
A ready-made machine and what it is compiled to both decide every word over its
alphabet, and accept it exactly if it is in the language of the machine.
-/
theorem machine_accepts_language (ready : ReadyMade) (word : List Char)
    (overAlphabet : ∀ value ∈ word, value ∈ ready.description.alphabet) :
    ∃ machine dfa verdict,
      ready.machine = .ok machine ∧ machine.automaton.determinize = .ok dfa ∧
        machine.decides word = .ok verdict ∧ dfa.decides word = .ok verdict ∧
          (verdict = true ↔ ready.Language word) := by
  have isWord := (ready.isWord_resolved_iff word).2 overAlphabet
  refine ⟨ready.resolved, _, _, ready.machine_eq, ready.determinize_resolved,
    Machine.decides_of_isWord ready.wellFormed_resolved ready.isTotal_resolved isWord, ?_,
    ready.intersects_active_iff isWord⟩
  exact ready.wellFormed_automaton_resolved.decides_subsetAutomaton isWord

/-- The word is accepted, although another one, zero, one may be pending at its end. -/
theorem machine_accepts_language_pending :
    (∀ value ∈ ['1', '0', '1', '1'], value ∈ containsOneZeroOne.description.alphabet) ∧
      ∃ machine dfa,
        containsOneZeroOne.machine = .ok machine ∧ machine.automaton.determinize = .ok dfa ∧
          machine.decides ['1', '0', '1', '1'] = .ok true ∧
            dfa.decides ['1', '0', '1', '1'] = .ok true := by
  have overAlphabet : ∀ value ∈ ['1', '0', '1', '1'],
      value ∈ containsOneZeroOne.description.alphabet := by
    have symbols : containsOneZeroOne.description.alphabet = ['0', '1'] := by rfl
    rw [symbols]
    simp
  rcases containsOneZeroOne.machine_accepts_language _ overAlphabet with
    ⟨machine, dfa, verdict, built, compiled, decided, decided', language⟩
  have contained : containsOneZeroOne.Language ['1', '0', '1', '1'] := ⟨[], ['1'], rfl⟩
  rw [language.2 contained] at decided decided'
  exact ⟨overAlphabet, machine, dfa, built, compiled, decided, decided'⟩

end ReadyMade

end WordAutomata
