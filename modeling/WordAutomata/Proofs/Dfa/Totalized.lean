import WordAutomata.Dfa.Totalized
import WordAutomata.Proofs.Dfa.Deterministic
import WordAutomata.Proofs.FreshName
import WordAutomata.Proofs.Tabulated

/-!
# Totalized automata

The sink of a totalized automaton has a name of its own, and every edge leads to
a state that was there before or to the sink.  Sets are only remembered by
automata that are total, and these are not changed.
-/

namespace WordAutomata.Dfa

variable {α : Type} [DecidableEq α]

omit [DecidableEq α] in
theorem length_names_withSink (dfa : Dfa α) :
    (dfa.automaton.names ++ [dfa.sinkName]).length = dfa.automaton.size + 1 := by
  simp [Automaton.names, Automaton.size]

theorem size_withSink (dfa : Dfa α) :
    dfa.withSink.automaton.size = dfa.automaton.size + 1 :=
  (Automaton.size_tabulate _ _ _ _ _).trans dfa.length_names_withSink

theorem name?_withSink (dfa : Dfa α) (state : Nat) :
    dfa.withSink.automaton.name? state = (dfa.automaton.names ++ [dfa.sinkName])[state]? := by
  rw [Automaton.name?, withSink, Automaton.names_tabulate]

theorem nodup_names_withSink {dfa : Dfa α} (wellFormed : dfa.WellFormed) :
    (dfa.automaton.names ++ [dfa.sinkName]).Nodup := by
  rw [List.nodup_append]
  refine ⟨wellFormed.automaton.names_nodup, List.nodup_singleton _, ?_⟩
  intro name used last member same
  rw [List.mem_singleton.1 member] at same
  rw [same] at used
  exact freshName_not_mem "sink" dfa.automaton.names used

/-- An edge that reads a symbol leads to its old target, or to the sink if there was none. -/
theorem targets_symbol_withSink (dfa : Dfa α) (state : Nat) (value : α) :
    dfa.withSink.automaton.targets state (.symbol value) =
      if state ≤ dfa.automaton.size ∧ value ∈ dfa.automaton.alphabet.symbols then
        .singleton ((dfa.successor? state value).getD dfa.automaton.size)
      else
        ∅ := by
  simp only [withSink, Automaton.targets_tabulate, length_names_withSink, Nat.lt_succ_iff,
    Alphabet.mem_labels, Label.symbol.injEq, forall_eq']

theorem targets_epsilon_withSink (dfa : Dfa α) (state : Nat) :
    dfa.withSink.automaton.targets state .epsilon = ∅ := by
  simp [withSink, Automaton.targets_tabulate]

/-- A symbol of the alphabet leads to its old target, or to the sink if there was none. -/
theorem successor?_withSink (dfa : Dfa α) {state : Nat} (present : state ≤ dfa.automaton.size)
    {value : α} (known : value ∈ dfa.automaton.alphabet.symbols) :
    dfa.withSink.successor? state value =
      some ((dfa.successor? state value).getD dfa.automaton.size) := by
  rw [successor?, targets_symbol_withSink, if_pos ⟨present, known⟩]
  rfl

theorem isTotal_withSink (dfa : Dfa α) : dfa.withSink.isTotal = true := by
  apply dfa.withSink.isTotal_iff.2
  intro state present value known
  rw [size_withSink] at present
  exact ⟨_, dfa.successor?_withSink (Nat.le_of_lt_succ present) known⟩

theorem WellFormed.getD_successor?_lt {dfa : Dfa α} (wellFormed : dfa.WellFormed)
    (state : Nat) (value : α) :
    (dfa.successor? state value).getD dfa.automaton.size < dfa.automaton.size + 1 := by
  cases found : dfa.successor? state value with
  | none => exact Nat.lt_succ_self _
  | some target => exact Nat.lt_succ_of_lt (wellFormed.successor?_lt found)

theorem WellFormed.wellFormed_automaton_withSink {dfa : Dfa α} (wellFormed : dfa.WellFormed) :
    dfa.withSink.automaton.WellFormed := by
  have size := dfa.length_names_withSink
  unfold withSink
  dsimp only
  apply Automaton.wellFormed_tabulate (nodup_names_withSink wellFormed)
  · intro state label target _ _ member
    cases label with
    | epsilon => exact absurd member (StateSet.not_mem_empty target)
    | symbol value =>
        rw [(StateSet.mem_singleton _ _).1 member, size]
        exact wellFormed.getD_successor?_lt state value
  · intro state member
    rw [(StateSet.mem_singleton _ _).1 member, size]
    exact Nat.lt_succ_of_lt wellFormed.initial_lt
  · intro state member
    rw [size]
    exact Nat.lt_succ_of_lt (wellFormed.automaton.accepting_lt state member)

theorem WellFormed.wellFormed_withSink {dfa : Dfa α} (wellFormed : dfa.WellFormed)
    (gaps : ¬ dfa.isTotal = true) :
    dfa.withSink.WellFormed := by
  refine ⟨wellFormed.wellFormed_automaton_withSink, rfl, ?_, ?_, ?_⟩
  · intro edge listed silent
    rw [Automaton.mem_edges_iff, silent, targets_epsilon_withSink] at listed
    exact StateSet.not_mem_empty edge.target listed
  · intro state _ value _
    rw [targets_symbol_withSink]
    split
    · exact Nat.le_refl 1
    · exact Nat.zero_le 1
  -- An automaton that remembers sets is total, and then no sink is added.
  · intro subsets remembered
    rcases Option.map_eq_some_iff.1 remembered with ⟨old, known, _⟩
    exact absurd (wellFormed.subsets_total old known).2 gaps

/-! ## Totalization -/

theorem alphabet_totalized (dfa : Dfa α) :
    dfa.totalized.automaton.alphabet = dfa.automaton.alphabet := by
  unfold totalized
  split <;> rfl

theorem isTotal_totalized (dfa : Dfa α) : dfa.totalized.isTotal = true := by
  unfold totalized
  split
  · assumption
  · exact dfa.isTotal_withSink

theorem totalized_of_isTotal {dfa : Dfa α} (total : dfa.isTotal = true) : dfa.totalized = dfa :=
  if_pos total

theorem totalized_of_not_isTotal {dfa : Dfa α} (partly : dfa.isTotal = false) :
    dfa.totalized = dfa.withSink :=
  if_neg (Bool.eq_false_iff.1 partly)

theorem WellFormed.wellFormed_totalized {dfa : Dfa α} (wellFormed : dfa.WellFormed) :
    dfa.totalized.WellFormed := by
  unfold totalized
  split
  · exact wellFormed
  · next gaps => exact wellFormed.wellFormed_withSink gaps

end WordAutomata.Dfa
