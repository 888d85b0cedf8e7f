import Mathlib.Data.List.Induction
import Mathlib.Data.List.Nodup
import Mathlib.Data.List.Perm.Subperm
import WordAutomata.FreshName

/-!
# Fresh names are fresh

Different numbers of primes give different names, so among one more candidate
than there are used names one is not in use.  A list of names that are each made
fresh against those before them therefore has no repetition, whatever the given
names are.
-/

namespace WordAutomata

theorem length_primed (base : String) (primes : Nat) :
    (primed base primes).length = base.length + primes := by
  have marks : (String.join (List.replicate primes "'")).length = primes := by
    induction primes with
    | zero => rfl
    | succ primes inductionHypothesis =>
        rw [List.replicate_succ, String.join_cons, String.length_append, inductionHypothesis]
        exact Nat.add_comm 1 primes
  rw [primed, String.length_append, marks]

theorem primed_injective (base : String) : Function.Injective (primed base) := by
  intro first second same
  have lengths := congrArg String.length same
  rw [length_primed, length_primed] at lengths
  exact Nat.add_left_cancel lengths

/-- One of the candidates is not in use, as there are more candidates than used names. -/
theorem exists_primed_not_mem (base : String) (used : List String) :
    ∃ primes ∈ List.range (used.length + 1), primed base primes ∉ used := by
  -- Otherwise the candidates, which are all different, would fit among the used names.
  by_contra allUsed
  have candidates : ((List.range (used.length + 1)).map (primed base)).Nodup :=
    List.nodup_range.map (primed_injective base)
  have inside : (List.range (used.length + 1)).map (primed base) ⊆ used := by
    intro name member
    rcases List.mem_map.1 member with ⟨primes, listed, rfl⟩
    by_contra unused
    exact allUsed ⟨primes, listed, unused⟩
  have bounded := (candidates.subperm inside).length_le
  rw [List.length_map, List.length_range] at bounded
  exact Nat.not_succ_le_self used.length bounded

/-- The least number of primes is chosen for which the name is not in use. -/
theorem exists_freshName_eq_primed (base : String) (used : List String) :
    ∃ primes, freshName base used = primed base primes ∧ primed base primes ∉ used ∧
      ∀ fewer < primes, primed base fewer ∈ used := by
  rcases exists_primed_not_mem base used with ⟨primes, listed, unused⟩
  rw [freshName, freshPrimes]
  cases found : (List.range (used.length + 1)).find? (primed base · ∉ used) with
  | none =>
      have refused := List.find?_eq_none.1 found primes listed
      exact absurd (decide_eq_true unused) refused
  | some least =>
      rcases List.find?_range_eq_some.1 found with ⟨free, _, taken⟩
      refine ⟨least, rfl, of_decide_eq_true free, ?_⟩
      intro fewer smaller
      simpa using taken fewer smaller

theorem freshName_not_mem (base : String) (used : List String) :
    freshName base used ∉ used := by
  rcases exists_freshName_eq_primed base used with ⟨primes, chosen, unused, _⟩
  rwa [chosen]

/-- A name that is not in use gets no primes. -/
theorem freshName_eq_self {base : String} {used : List String} (unused : base ∉ used) :
    freshName base used = base := by
  have plain : primed base 0 = base := String.append_empty
  have least : freshPrimes base used = 0 := by
    rw [freshPrimes, List.range_succ_eq_map, List.find?_cons_of_pos]
    · rfl
    · rw [plain]
      exact decide_eq_true unused
  rw [freshName, least, plain]

@[simp]
theorem distinctNames_nil : distinctNames [] = [] :=
  rfl

@[simp]
theorem distinctNames_append_singleton (bases : List String) (base : String) :
    distinctNames (bases ++ [base]) =
      distinctNames bases ++ [freshName base (distinctNames bases)] := by
  simp [distinctNames]

theorem nodup_distinctNames (bases : List String) : (distinctNames bases).Nodup := by
  induction bases using List.reverseRecOn with
  | nil => exact List.nodup_nil
  | append_singleton bases base inductionHypothesis =>
      rw [distinctNames_append_singleton, List.nodup_append]
      refine ⟨inductionHypothesis, List.nodup_singleton _, ?_⟩
      intro name earlier last member same
      rw [List.mem_singleton.1 member] at same
      exact freshName_not_mem base (distinctNames bases) (same ▸ earlier)

/-- Names that are pairwise different already stay as they are. -/
theorem distinctNames_eq_self {bases : List String} (distinct : bases.Nodup) :
    distinctNames bases = bases := by
  induction bases using List.reverseRecOn with
  | nil => rfl
  | append_singleton bases base inductionHypothesis =>
      rcases List.nodup_append.1 distinct with ⟨earlier, _, different⟩
      have unused : base ∉ bases :=
        fun member => different base member base (List.mem_singleton_self base) rfl
      rw [distinctNames_append_singleton, inductionHypothesis earlier, freshName_eq_self unused]

end WordAutomata
