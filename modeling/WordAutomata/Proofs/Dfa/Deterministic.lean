import WordAutomata.Proofs.WellFormed

/-!
# The check for determinism

The check accepts an automaton exactly if it has one initial state, no silent
edge, and at most one edge for each state and symbol.  Applied to the automaton
of a well-formed deterministic automaton it therefore succeeds, and gives the
same automaton with the same initial state; the sets that its states stand for
are forgotten.
-/

namespace WordAutomata

theorem StateSet.eq_singleton_iff (set : StateSet) (state : Nat) :
    set = .singleton state ↔ set.members = [state] := by
  cases set
  simp [singleton]

namespace Dfa

variable {α : Type} [DecidableEq α]

theorem branchings_eq_nil_iff (automaton : Automaton α) (state : Nat) :
    branchings automaton state = [] ↔
      ∀ value ∈ automaton.alphabet.symbols,
        (automaton.targets state (.symbol value)).size ≤ 1 := by
  simp [branchings]

theorem flawsAt_eq_nil_iff (automaton : Automaton α) (state : Nat) :
    flawsAt automaton state = [] ↔
      automaton.targets state .epsilon = ∅ ∧
        ∀ value ∈ automaton.alphabet.symbols,
          (automaton.targets state (.symbol value)).size ≤ 1 := by
  rw [flawsAt, ← StateSet.isEmpty_iff, ← branchings_eq_nil_iff]
  split
  · next silent => simp [silent]
  · next silent => simp [silent]

theorem ofAutomaton_eq_ok_iff (automaton : Automaton α) (dfa : Dfa α) :
    ofAutomaton automaton = .ok dfa ↔
      dfa.automaton = automaton ∧ dfa.subsets = none ∧
        automaton.initial = .singleton dfa.initial ∧
        ∀ state ∈ automaton.ids, flawsAt automaton state = [] := by
  rw [StateSet.eq_singleton_iff, ← List.flatMap_eq_nil_iff, ofAutomaton]
  obtain ⟨underlying, initial, subsets⟩ := dfa
  cases starting : automaton.initial.members with
  | nil => simp
  | cons first others =>
      cases others with
      | cons second others => simp
      | nil =>
          cases found : automaton.ids.flatMap (flawsAt automaton) with
          | nil => simp [eq_comm, and_comm]
          | cons flaw flaws => simp

theorem wellFormed_of_ofAutomaton {automaton : Automaton α} {dfa : Dfa α}
    (wellFormed : automaton.WellFormed) (checked : ofAutomaton automaton = .ok dfa) :
    dfa.WellFormed := by
  rcases (ofAutomaton_eq_ok_iff automaton dfa).1 checked with ⟨rfl, forgotten, initial, flawless⟩
  simp only [flawsAt_eq_nil_iff] at flawless
  refine ⟨wellFormed, initial, ?_, fun state within => (flawless state within).2, ?_⟩
  · intro edge listed silent
    rw [Automaton.mem_edges_iff, silent] at listed
    have within := List.mem_range.2 (Automaton.lt_size_of_mem_targets listed)
    rw [(flawless edge.source within).1] at listed
    exact StateSet.not_mem_empty edge.target listed
  · intro subsets remembered
    rw [forgotten] at remembered
    cases remembered

theorem WellFormed.targets_epsilon {dfa : Dfa α} (wellFormed : dfa.WellFormed) (state : Nat) :
    dfa.automaton.targets state .epsilon = ∅ := by
  ext target
  constructor
  · intro member
    have listed := (dfa.automaton.mem_edges_iff ⟨state, .epsilon, target⟩).2 member
    exact absurd rfl (wellFormed.edges_reading _ listed)
  · intro member
    exact absurd member (StateSet.not_mem_empty target)

/-- The check accepts what is deterministic already, and only forgets the sets. -/
theorem WellFormed.ofAutomaton_eq {dfa : Dfa α} (wellFormed : dfa.WellFormed) :
    ofAutomaton dfa.automaton = .ok { dfa with subsets := none } := by
  rw [ofAutomaton_eq_ok_iff]
  refine ⟨rfl, rfl, wellFormed.initial_eq, ?_⟩
  intro state within
  rw [flawsAt_eq_nil_iff]
  exact ⟨wellFormed.targets_epsilon state, wellFormed.targets_size_le state within⟩

end Dfa

end WordAutomata
