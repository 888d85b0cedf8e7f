import WordAutomata.Proofs.Dfa.Reachable
import WordAutomata.Proofs.Dfa.Totalized
import WordAutomata.Proofs.SubsetConstruction.Runs

/-!
# Compiling a deterministic automaton

If a deterministic automaton is compiled like any other automaton, then the
result consists of its reachable states, completed by one more state if an edge
is missing at one of them.  Each set that is met has a single member, which is a
reachable state, or it is empty.  A word on which the given automaton gets stuck
is rejected by the compiled one.
-/

namespace WordAutomata

namespace Dfa

variable {α : Type} [DecidableEq α]

/--
The second automaton was compiled from the first one, and is its reachable part
with all gaps filled.
-/
structure IsCompletedReachablePart (dfa compiled : Dfa α) : Prop where
  alphabet_eq : compiled.automaton.alphabet = dfa.automaton.alphabet
  /-- Every state stands for a set, and only states do. -/
  stands_iff : ∀ state,
    (∃ subset, compiled.subsetOf? state = some subset) ↔ state < compiled.automaton.size
  /-- No two states stand for the same set. -/
  injective : ∀ first second subset, compiled.subsetOf? first = some subset →
    compiled.subsetOf? second = some subset → first = second
  /-- There is a state for each reachable state, and one for the empty set if there is a gap. -/
  subset_iff : ∀ subset, (∃ state, compiled.subsetOf? state = some subset) ↔
    (∃ state, state ∈ dfa.reachableStates ∧ subset = .singleton state) ∨
      (dfa.HasReachableGap ∧ subset = ∅)
  size_of_gap : dfa.HasReachableGap →
    compiled.automaton.size = dfa.reachableStates.size + 1
  size_of_no_gap : ¬ dfa.HasReachableGap →
    compiled.automaton.size = dfa.reachableStates.size
  size_le : compiled.automaton.size ≤ dfa.totalized.automaton.size
  accepts_iff : ∀ word, dfa.automaton.alphabet.IsWord word →
    (compiled.decides word = .ok true ↔ dfa.decides word = .ok true)
  /-- Every other word over the alphabet is rejected, also where the given automaton gets stuck. -/
  rejects : ∀ word, dfa.automaton.alphabet.IsWord word → dfa.decides word ≠ .ok true →
    compiled.decides word = .ok false

variable {dfa : Dfa α}

/-! ## Sets -/

/-- The sets that are met are those of the reachable states, and the empty one behind a gap. -/
theorem WellFormed.mem_subsets_iff (wellFormed : dfa.WellFormed) (subset : StateSet) :
    subset ∈ dfa.automaton.subsetSearch.nodes ↔
      (∃ state, state ∈ dfa.reachableStates ∧ subset = .singleton state) ∨
        (dfa.HasReachableGap ∧ subset = ∅) := by
  rw [wellFormed.automaton.mem_subsets_iff, ← wellFormed.exists_stateAfter_eq_none_iff]
  simp only [wellFormed.active_eq_ofPlace, wellFormed.mem_reachableStates_iff]
  constructor
  · rintro ⟨word, isWord, rfl⟩
    cases reached : dfa.stateAfter word with
    | none => exact Or.inr ⟨⟨word, isWord, reached⟩, rfl⟩
    | some state => exact Or.inl ⟨state, ⟨word, reached⟩, rfl⟩
  · rintro (⟨state, ⟨word, reached⟩, rfl⟩ | ⟨⟨word, isWord, lost⟩, rfl⟩)
    · exact ⟨word, isWord_of_stateAfter reached, by rw [reached]; rfl⟩
    · exact ⟨word, isWord, by rw [lost]; rfl⟩

/-- The number of sets, where `dead` lists the empty set if there is a gap. -/
theorem WellFormed.length_subsets (wellFormed : dfa.WellFormed) {dead : List StateSet}
    (distinct : dead.Nodup)
    (listed : ∀ subset, subset ∈ dead ↔ dfa.HasReachableGap ∧ subset = ∅) :
    dfa.automaton.subsetSearch.nodes.length = dfa.reachableStates.size + dead.length := by
  have apart : (dfa.reachableStates.members.map StateSet.singleton ++ dead).Nodup := by
    rw [List.nodup_append]
    refine ⟨dfa.reachableStates.nodup.map StateSet.singleton_injective, distinct, ?_⟩
    intro single member empty member' same
    rcases List.mem_map.1 member with ⟨state, _, rfl⟩
    rw [((listed empty).1 member').2] at same
    exact StateSet.not_mem_empty state (same ▸ (StateSet.mem_singleton state state).2 rfl)
  have members : ∀ subset, subset ∈ dfa.automaton.subsetSearch.nodes ↔
      subset ∈ dfa.reachableStates.members.map StateSet.singleton ++ dead := by
    intro subset
    rw [wellFormed.mem_subsets_iff, List.mem_append, listed, List.mem_map]
    simp only [StateSet.mem_def, eq_comm]
  have permuted := (List.perm_ext_iff_of_nodup wellFormed.automaton.nodup_subsets apart).2 members
  rw [permuted.length_eq, List.length_append, List.length_map]
  rfl

/-! ## Sizes -/

theorem WellFormed.size_compiled_of_gap (wellFormed : dfa.WellFormed)
    (gap : dfa.HasReachableGap) :
    dfa.automaton.subsetAutomaton.automaton.size = dfa.reachableStates.size + 1 := by
  rw [Automaton.size_subsetAutomaton]
  apply wellFormed.length_subsets (List.nodup_singleton ∅)
  intro subset
  simp [gap]

theorem WellFormed.size_compiled_of_no_gap (wellFormed : dfa.WellFormed)
    (noGap : ¬ dfa.HasReachableGap) :
    dfa.automaton.subsetAutomaton.automaton.size = dfa.reachableStates.size := by
  rw [Automaton.size_subsetAutomaton]
  apply wellFormed.length_subsets List.nodup_nil
  intro subset
  simp [noGap]

/-- Totalizing needs at least as many states, as it keeps those that cannot be reached. -/
theorem WellFormed.size_compiled_le (wellFormed : dfa.WellFormed) :
    dfa.automaton.subsetAutomaton.automaton.size ≤ dfa.totalized.automaton.size := by
  have bounded := wellFormed.size_reachableStates_le
  cases total : dfa.isTotal with
  | true =>
      rw [wellFormed.size_compiled_of_no_gap (wellFormed.not_hasReachableGap total),
        totalized_of_isTotal total]
      exact bounded
  | false =>
      rw [totalized_of_not_isTotal total, size_withSink]
      by_cases gap : dfa.HasReachableGap
      · rw [wellFormed.size_compiled_of_gap gap]
        omega
      · rw [wellFormed.size_compiled_of_no_gap gap]
        omega

/-! ## Verdicts -/

/-- A word over the alphabet is accepted if it leads to an accepting state, and else rejected. -/
theorem WellFormed.decides_compiled (wellFormed : dfa.WellFormed) {word : List α}
    (isWord : dfa.automaton.alphabet.IsWord word) :
    dfa.automaton.subsetAutomaton.decides word = .ok (dfa.acceptsAt (dfa.stateAfter word)) := by
  rw [wellFormed.automaton.decides_subsetAutomaton isWord, wellFormed.intersects_active]

/--
Compiling a deterministic automaton gives its reachable part, completed by one
state for the empty set if an edge is missing there.
-/
theorem determinize_isCompletedReachablePart (dfa : Dfa α) (wellFormed : dfa.WellFormed) :
    ∃ compiled, dfa.automaton.determinize = .ok compiled ∧
      dfa.IsCompletedReachablePart compiled := by
  have something : dfa.automaton.initial ≠ ∅ := by
    rw [wellFormed.initial_eq]
    intro nothing
    exact StateSet.not_mem_empty dfa.initial
      (nothing ▸ (StateSet.mem_singleton dfa.initial dfa.initial).2 rfl)
  refine ⟨dfa.automaton.subsetAutomaton,
    dfa.automaton.determinize_of_initial_ne_empty something, ?_⟩
  refine
    { alphabet_eq := dfa.automaton.alphabet_subsetAutomaton
      stands_iff := dfa.automaton.exists_subsetOf?_iff
      injective := fun _ _ _ left right => wellFormed.automaton.subsetOf?_injective left right
      subset_iff := ?_
      size_of_gap := wellFormed.size_compiled_of_gap
      size_of_no_gap := wellFormed.size_compiled_of_no_gap
      size_le := wellFormed.size_compiled_le
      accepts_iff := ?_
      rejects := ?_ }
  · intro subset
    rw [Automaton.exists_state_iff_mem_subsets, wellFormed.mem_subsets_iff]
  · intro word isWord
    rw [wellFormed.decides_compiled isWord, Except.ok.injEq, acceptsAt_stateAfter_iff]
  · intro word isWord rejected
    rw [wellFormed.decides_compiled isWord, Except.ok.injEq, ← Bool.not_eq_true,
      acceptsAt_stateAfter_iff]
    exact rejected

/-- Accepts one letter 'a'; no edge leads to the last state. -/
def singleLetter : Dfa Char where
  automaton :=
    { alphabet := ⟨['a'], by decide⟩
      states := [⟨"p", [.singleton 1], ∅⟩, ⟨"q", [∅], ∅⟩, ⟨"stray", [.singleton 1], ∅⟩]
      initial := .singleton 0
      accepting := .singleton 1 }
  initial := 0
  subsets := none

theorem determinize_isCompletedReachablePart_singleLetter :
    singleLetter.WellFormed ∧ singleLetter.HasReachableGap ∧
      singleLetter.decides ['a', 'a'] = .error (.undefinedTransition "q" 'a' 1) ∧
      ∃ compiled, singleLetter.automaton.determinize = .ok compiled ∧
        singleLetter.IsCompletedReachablePart compiled ∧
        compiled.automaton.size = 3 ∧ singleLetter.totalized.automaton.size = 4 ∧
        compiled.decides ['a', 'a'] = .ok false := by
  have wellFormed : singleLetter.WellFormed := by decide
  have gap : singleLetter.HasReachableGap := ⟨1, by decide, 'a', by decide, by decide⟩
  have stuck : singleLetter.decides ['a', 'a'] = .error (.undefinedTransition "q" 'a' 1) := by rfl
  rcases determinize_isCompletedReachablePart singleLetter wellFormed with
    ⟨compiled, determinized, reachablePart⟩
  refine ⟨wellFormed, gap, stuck, compiled, determinized, reachablePart,
    (reachablePart.size_of_gap gap).trans (by decide), by decide, ?_⟩
  apply reachablePart.rejects ['a', 'a'] (by decide)
  rw [stuck]
  nofun

end Dfa

end WordAutomata
