import WordAutomata.Proofs.FreshName

/-!
# How many primes a name gets

If none of the given names ends in a prime, then a primed name tells which name
it was made from and how many primes were appended.  A name can then only hit
what was made from the same name before, so it gets as many primes as the same
name has been given before.
-/

namespace WordAutomata

/-- The name does not end in a prime. -/
def Unprimed (base : String) : Prop :=
  ¬ ['\''] <:+ base.toList

theorem toList_primed (base : String) (primes : Nat) :
    (primed base primes).toList = base.toList ++ List.replicate primes '\'' := by
  have marks : (String.join (List.replicate primes "'")).toList =
      List.replicate primes '\'' := by
    induction primes with
    | zero => rfl
    | succ primes inductionHypothesis =>
        rw [List.replicate_succ, String.join_cons, String.toList_append, inductionHypothesis]
        rfl
  rw [primed, String.toList_append, marks]

theorem primed_zero (base : String) : primed base 0 = base :=
  String.append_empty

/-- A primed name tells what it was made from. -/
theorem Unprimed.primed_inj {left right : String} (unprimed : Unprimed left)
    (unprimed' : Unprimed right) {few many : Nat} (same : primed left few = primed right many) :
    left = right ∧ few = many := by
  have characters := congrArg String.toList same
  rw [toList_primed, toList_primed] at characters
  clear same
  -- Primes are taken from the ends of both, until one of them has none left.
  induction few generalizing many with
  | zero =>
      cases many with
      | zero => exact ⟨String.toList_inj.1 (by simpa using characters), rfl⟩
      | succ many =>
          rw [List.replicate_zero, List.append_nil, List.replicate_succ', ← List.append_assoc]
            at characters
          exact absurd ⟨_, characters.symm⟩ unprimed
  | succ few inductionHypothesis =>
      cases many with
      | zero =>
          rw [List.replicate_zero, List.append_nil, List.replicate_succ', ← List.append_assoc]
            at characters
          exact absurd ⟨_, characters⟩ unprimed'
      | succ many =>
          rw [List.replicate_succ', List.replicate_succ', ← List.append_assoc,
            ← List.append_assoc] at characters
          rcases inductionHypothesis (List.append_cancel_right characters) with ⟨rfl, rfl⟩
          exact ⟨rfl, rfl⟩

/-- If the used names with primes are the first ones, then the next one is chosen. -/
theorem freshName_eq_primed {base : String} {used : List String} {count : Nat}
    (taken : ∀ primes, primed base primes ∈ used ↔ primes < count) :
    freshName base used = primed base count := by
  rcases exists_freshName_eq_primed base used with ⟨primes, chosen, unused, least⟩
  rw [taken] at unused
  rcases Nat.lt_or_eq_of_le (Nat.le_of_not_lt unused) with later | rfl
  · exact absurd ((taken count).1 (least count later)) (Nat.lt_irrefl count)
  · exact chosen

/-- The names that were made from a name have fewer primes than it was given times. -/
theorem primed_mem_distinctNames_iff {bases : List String}
    (unprimed : ∀ base ∈ bases, Unprimed base) {base : String} (unprimed' : Unprimed base)
    (primes : Nat) :
    primed base primes ∈ distinctNames bases ↔ primes < bases.count base := by
  induction bases using List.reverseRecOn generalizing base primes with
  | nil => simp
  | append_singleton bases last inductionHypothesis =>
      rw [List.forall_mem_append, List.forall_mem_singleton] at unprimed
      rcases unprimed with ⟨earlier, final⟩
      have next : freshName last (distinctNames bases) = primed last (bases.count last) :=
        freshName_eq_primed fun fewer => inductionHypothesis earlier final fewer
      rw [distinctNames_append_singleton, next, List.mem_append, List.mem_singleton,
        inductionHypothesis earlier unprimed', List.count_append]
      by_cases same : base = last
      · have exact_iff : primed base primes = primed last (bases.count last) ↔
            primes = bases.count base := by
          rw [same]
          exact (primed_injective last).eq_iff
        rw [exact_iff, ← same, List.count_singleton_self]
        omega
      · have other : List.count base [last] = 0 :=
          List.count_eq_zero.2 fun member => same (List.mem_singleton.1 member)
        rw [other, Nat.add_zero, or_iff_left]
        exact fun equal => same (unprimed'.primed_inj final equal).1

/-- A name gets as many primes as the same name has been given before. -/
theorem getElem?_distinctNames {bases : List String}
    (unprimed : ∀ base ∈ bases, Unprimed base) (place : Nat) :
    (distinctNames bases)[place]? =
      bases[place]?.map fun base => primed base ((bases.take place).count base) := by
  induction bases using List.reverseRecOn with
  | nil => rfl
  | append_singleton bases last inductionHypothesis =>
      rw [List.forall_mem_append, List.forall_mem_singleton] at unprimed
      rcases unprimed with ⟨earlier, final⟩
      rw [distinctNames_append_singleton]
      rcases Nat.lt_trichotomy place bases.length with before | rfl | behind
      · rw [List.getElem?_append_left (by rwa [length_distinctNames]),
          List.getElem?_append_left before, List.take_append_of_le_length (Nat.le_of_lt before),
          inductionHypothesis earlier]
      · have next : freshName last (distinctNames bases) = primed last (bases.count last) :=
          freshName_eq_primed fun fewer => primed_mem_distinctNames_iff earlier final fewer
        rw [List.take_left, List.getElem?_concat_length, ← length_distinctNames bases,
          List.getElem?_concat_length, next]
        rfl
      · rw [List.getElem?_eq_none, List.getElem?_eq_none]
        · rfl
        · simpa using Nat.succ_le_of_lt behind
        · simpa [length_distinctNames] using Nat.succ_le_of_lt behind

/-- Names do not depend on those behind them. -/
theorem take_distinctNames (bases : List String) (place : Nat) :
    (distinctNames bases).take place = distinctNames (bases.take place) := by
  induction bases using List.reverseRecOn with
  | nil => simp
  | append_singleton bases last inductionHypothesis =>
      have length := length_distinctNames bases
      rcases Nat.lt_or_ge bases.length place with whole | part
      · rw [List.take_of_length_le, List.take_of_length_le]
        · simpa using Nat.succ_le_of_lt whole
        · simpa [length] using Nat.succ_le_of_lt whole
      · rw [distinctNames_append_singleton, List.take_append_of_le_length (length ▸ part),
          List.take_append_of_le_length part, inductionHypothesis]

theorem count_take (bases : List String) (base : String) (place : Nat) :
    (bases.take place).count base =
      (List.range place).countP fun earlier => bases[earlier]? = some base := by
  induction place with
  | zero => simp
  | succ place inductionHypothesis =>
      rw [List.take_add_one, List.count_append, inductionHypothesis, List.range_succ,
        List.countP_append, List.countP_singleton]
      cases located : bases[place]? with
      | none => simp
      | some found => simp [List.count_singleton]

end WordAutomata
