import Mathlib.Data.Finset.Sort
import WordAutomata.StateSet.Registers

/-!
# Histories of state sets on mathematical sets

The instructions for registers can be carried out on mathematical sets as well:
there an instruction changes a register by the operation on sets that it is
named for, and its answer is a property of the sets alone.  This file says so,
and proves that the registers denote the mathematical sets that come out of the
same history, and that they give the same answers.
-/

namespace WordAutomata

open StateSet (Instruction Answer)

/-! ## Ascending lists -/

/-- An ascending list is the sorted list of its members. -/
theorem sort_toFinset_of_ascending {list : List Nat} (ascending : list.Pairwise (· < ·)) :
    list.toFinset.sort = list := by
  have nodup : list.Nodup := ascending.imp Nat.ne_of_lt
  exact (List.toFinset_sort (· ≤ ·) nodup).2 (ascending.imp Nat.le_of_lt)

theorem compare_eq_lt_iff (left right : List Nat) : compare left right = .lt ↔ left < right := by
  induction left generalizing right with
  | nil => cases right <;> simp
  | cons first rest inductionHypothesis =>
      cases right with
      | nil => simp
      | cons other behind =>
          have later := inductionHypothesis behind
          rw [List.compare_eq_compareLex] at later ⊢
          rw [List.compareLex_cons_cons, Ordering.then_eq_lt, List.cons_lt_cons_iff, later,
            Nat.compare_eq_lt, Nat.compare_eq_eq]

/-! ## Mathematical sets -/

/-- Sets are ordered as their ascending lists of members are in a dictionary. -/
def dictionaryOrder (left right : Finset Nat) : Ordering :=
  if left.sort < right.sort then .lt else if left = right then .eq else .gt

theorem compare_sort (left right : Finset Nat) :
    compare left.sort right.sort = dictionaryOrder left right := by
  rw [dictionaryOrder]
  split
  · next before => exact (compare_eq_lt_iff _ _).2 before
  · next notBefore =>
      split
      · next same => rw [same, Std.compare_self]
      · next different =>
          cases order : compare left.sort right.sort with
          | lt => exact absurd ((compare_eq_lt_iff _ _).1 order) notBefore
          | eq =>
              have same := congrArg List.toFinset (Std.compare_eq_iff_eq.1 order)
              rw [Finset.sort_toFinset, Finset.sort_toFinset] at same
              exact absurd same different
          | gt => rfl

/-- A mathematical set for each register, and the family of the remembered sets. -/
@[ext]
structure Denoted where
  content : Nat → Finset Nat
  remembered : Finset (Finset Nat)

namespace Denoted

/-- At first all registers are empty, and nothing is remembered. -/
def start : Denoted where
  content := fun _ => ∅
  remembered := ∅

def assign (sets : Denoted) (register : Nat) (set : Finset Nat) : Denoted :=
  { sets with content := Function.update sets.content register set }

/-- What an instruction does to mathematical sets. -/
def after (sets : Denoted) : Instruction → Denoted
  | .clear register | .reserve register _ => sets.assign register ∅
  | .singleton register state => sets.assign register {state}
  | .collect register states => sets.assign register states.toFinset
  | .extend register states =>
      sets.assign register (sets.content register ∪ states.toFinset)
  | .copy register other => sets.assign register (sets.content other)
  | .unite register other =>
      sets.assign register (sets.content register ∪ sets.content other)
  | .insert register state => sets.assign register (insert state (sets.content register))
  | .remove register state => sets.assign register ((sets.content register).erase state)
  | .remember register =>
      { sets with remembered := insert (sets.content register) sets.remembered }
  | .contains _ _ | .isEmpty _ | .intersects _ _ | .isSubset _ _ | .equal _ _ | .order _ _
  | .text _ | .list _ => sets

/-- What mathematical sets answer to an instruction. -/
def answer (sets : Denoted) : Instruction → Answer
  | .insert register state => .truth (state ∉ sets.content register)
  | .remove register state => .truth (state ∈ sets.content register)
  | .contains register state => .truth (state ∈ sets.content register)
  | .isEmpty register => .truth (sets.content register = ∅)
  | .intersects register other =>
      .truth (sets.content register ∩ sets.content other).Nonempty
  | .isSubset register other => .truth (sets.content register ⊆ sets.content other)
  | .equal register other => .truth (sets.content register = sets.content other)
  | .order register other =>
      .order (dictionaryOrder (sets.content register) (sets.content other))
  | .text register => .text (renderBraced ((sets.content register).sort.map render))
  | .list register => .states (sets.content register).sort
  | .remember register => .truth (sets.content register ∉ sets.remembered)
  | .clear _ | .reserve _ _ | .singleton _ _ | .collect _ _ | .extend _ _ | .copy _ _
  | .unite _ _ => .done

/-- The sets after a history of instructions. -/
def afterAll (history : List Instruction) : Denoted :=
  history.foldl after start

/-! ## Registers of any kind -/

section Contents

variable {β : Type} (meaning : β → Finset Nat) (content : Nat → β) (remembered : List β)

/-- What registers denote whose contents have the given meaning. -/
def ofContents : Denoted where
  content := fun register => meaning (content register)
  remembered := (remembered.map meaning).toFinset

theorem ofContents_assign (register : Nat) (value : β) :
    ofContents meaning (fun other => if other = register then value else content other)
        remembered =
      (ofContents meaning content remembered).assign register (meaning value) := by
  ext1
  · funext other
    by_cases same : other = register <;> simp [ofContents, assign, same]
  · rfl

theorem mem_remembered_ofContents (set : Finset Nat) :
    set ∈ (ofContents meaning content remembered).remembered ↔
      ∃ value ∈ remembered, meaning value = set := by
  simp [ofContents]

/-- Remembering something that is remembered already changes nothing. -/
theorem ofContents_remember_of_mem {register : Nat}
    (known : ∃ value ∈ remembered, meaning value = meaning (content register)) :
    ofContents meaning content remembered =
      (ofContents meaning content remembered).after (.remember register) := by
  have member := (mem_remembered_ofContents meaning content remembered _).2 known
  ext1
  · rfl
  · exact (Finset.insert_eq_of_mem member).symm

theorem ofContents_remember_cons (register : Nat) :
    ofContents meaning content (content register :: remembered) =
      (ofContents meaning content remembered).after (.remember register) := by
  ext1
  · rfl
  · rw [ofContents, List.map_cons, List.toFinset_cons]
    rfl

/-- What is remembered for the first time counts as new. -/
theorem answer_remember {known : Prop} [Decidable known] (kept added : β) {sets : Denoted}
    {register : Nat} (same : known ↔ sets.content register ∈ sets.remembered) :
    (if known then (kept, Answer.truth false) else (added, Answer.truth true)).2 =
      sets.answer (.remember register) := by
  split
  · next found =>
      exact congrArg Answer.truth (decide_eq_false (not_not.2 (same.1 found))).symm
  · next fresh => exact congrArg Answer.truth (decide_eq_true (mt same.2 fresh)).symm

end Contents

end Denoted

namespace StateSet

/-! ## Lists of members denote sets -/

/-- The mathematical set of the members. -/
def toFinset (set : StateSet) : Finset Nat :=
  set.members.toFinset

@[simp]
theorem mem_toFinset (set : StateSet) (state : Nat) : state ∈ set.toFinset ↔ state ∈ set :=
  List.mem_toFinset

theorem toFinset_inj {left right : StateSet} : left.toFinset = right.toFinset ↔ left = right := by
  constructor
  · intro same
    ext state
    rw [← mem_toFinset, same, mem_toFinset]
  · rintro rfl
    rfl

/-- The members are listed in ascending order. -/
@[simp]
theorem sort_toFinset (set : StateSet) : set.toFinset.sort = set.members :=
  sort_toFinset_of_ascending set.ascending

theorem card_toFinset (set : StateSet) : set.toFinset.card = set.size :=
  List.toFinset_card_of_nodup set.nodup

@[simp]
theorem toFinset_empty : (∅ : StateSet).toFinset = ∅ :=
  rfl

@[simp]
theorem toFinset_singleton (state : Nat) : (singleton state).toFinset = {state} :=
  rfl

@[simp]
theorem toFinset_insert (set : StateSet) (state : Nat) :
    (set.insert state).toFinset = Insert.insert state set.toFinset := by
  ext
  simp

@[simp]
theorem toFinset_erase (set : StateSet) (state : Nat) :
    (set.erase state).toFinset = set.toFinset.erase state := by
  ext
  simp [and_comm]

@[simp]
theorem toFinset_insertMany (set : StateSet) (states : List Nat) :
    (set.insertMany states).toFinset = set.toFinset ∪ states.toFinset := by
  ext
  simp

@[simp]
theorem toFinset_ofList (states : List Nat) : (ofList states).toFinset = states.toFinset := by
  ext
  simp

@[simp]
theorem toFinset_union (left right : StateSet) :
    (left ∪ right).toFinset = left.toFinset ∪ right.toFinset := by
  ext
  simp

theorem isEmpty_eq_decide (set : StateSet) : set.isEmpty = decide (set.toFinset = ∅) := by
  rw [Bool.eq_iff_iff, isEmpty_iff, decide_eq_true_iff, ← toFinset_empty, toFinset_inj]

theorem intersects_eq_decide (left right : StateSet) :
    left.intersects right = decide (left.toFinset ∩ right.toFinset).Nonempty := by
  rw [Bool.eq_iff_iff, intersects_iff, decide_eq_true_iff]
  simp [Finset.Nonempty]

theorem isSubset_eq_decide (left right : StateSet) :
    left.isSubset right = decide (left.toFinset ⊆ right.toFinset) := by
  rw [Bool.eq_iff_iff, isSubset_iff, decide_eq_true_iff]
  simp [Finset.subset_iff]

theorem compare_eq_dictionaryOrder (left right : StateSet) :
    compare left right = dictionaryOrder left.toFinset right.toFinset := by
  rw [← compare_sort, sort_toFinset, sort_toFinset]
  rfl

/-- The dictionary order of member lists is a total order of the sets. -/
instance : Std.TransOrd StateSet :=
  inferInstanceAs (Std.TransCmp (compareOn members))

/-- Only equal sets stand at the same place of the order. -/
instance : Std.LawfulEqOrd StateSet where
  eq_of_compare := by
    intro left right same
    have members : left.members = right.members := Std.compare_eq_iff_eq.1 same
    rw [← toFinset_inj, toFinset, toFinset, members]

namespace Registers

/-- The mathematical sets that registers stand for. -/
def denoted (registers : Registers) : Denoted :=
  .ofContents toFinset registers.content registers.remembered

theorem denoted_assign (registers : Registers) (register : Nat) {set : StateSet}
    {denoted : Finset Nat} (same : set.toFinset = denoted) :
    (registers.assign register set).denoted = registers.denoted.assign register denoted :=
  same ▸ Denoted.ofContents_assign _ _ _ register set

/-- Remembered sets are told apart by their members. -/
theorem mem_remembered_iff (registers : Registers) (set : StateSet) :
    set ∈ registers.remembered ↔ set.toFinset ∈ registers.denoted.remembered := by
  rw [denoted, Denoted.mem_remembered_ofContents]
  simp [toFinset_inj]

/-- One instruction does to the registers what it does to the sets. -/
theorem denoted_execute (registers : Registers) (instruction : Instruction) :
    (registers.execute instruction).1.denoted = registers.denoted.after instruction := by
  cases instruction with
  | clear register => exact registers.denoted_assign register toFinset_empty
  | reserve register capacity => exact registers.denoted_assign register toFinset_empty
  | singleton register state => exact registers.denoted_assign register (toFinset_singleton state)
  | collect register states => exact registers.denoted_assign register (toFinset_ofList states)
  | extend register states => exact registers.denoted_assign register (toFinset_insertMany _ states)
  | copy register other => exact registers.denoted_assign register rfl
  | unite register other => exact registers.denoted_assign register (toFinset_union _ _)
  | insert register state => exact registers.denoted_assign register (toFinset_insert _ state)
  | remove register state => exact registers.denoted_assign register (toFinset_erase _ state)
  | remember register =>
      rw [execute]
      split
      · next known => exact Denoted.ofContents_remember_of_mem _ _ _ ⟨_, known, rfl⟩
      · exact Denoted.ofContents_remember_cons _ _ _ register
  | contains _ _ | isEmpty _ | intersects _ _ | isSubset _ _ | equal _ _ | order _ _ | text _
  | list _ => rfl

/-- The answer to an instruction depends on the denoted sets alone. -/
theorem answer_execute (registers : Registers) (instruction : Instruction) :
    (registers.execute instruction).2 = registers.denoted.answer instruction := by
  cases instruction with
  | insert register state =>
      exact congrArg Answer.truth (decide_eq_decide.2 (not_congr (mem_toFinset _ state).symm))
  | remove register state =>
      exact congrArg Answer.truth (decide_eq_decide.2 (mem_toFinset _ state).symm)
  | contains register state =>
      exact congrArg Answer.truth (decide_eq_decide.2 (mem_toFinset _ state).symm)
  | isEmpty register => exact congrArg Answer.truth (isEmpty_eq_decide _)
  | intersects register other => exact congrArg Answer.truth (intersects_eq_decide _ _)
  | isSubset register other => exact congrArg Answer.truth (isSubset_eq_decide _ _)
  | equal register other =>
      exact congrArg Answer.truth (decide_eq_decide.2 toFinset_inj.symm)
  | order register other => exact congrArg Answer.order (compare_eq_dictionaryOrder _ _)
  | text register =>
      simp only [execute, Denoted.answer, denoted, Denoted.ofContents, sort_toFinset]
      rfl
  | list register => exact congrArg Answer.states (sort_toFinset _).symm
  | remember register => exact Denoted.answer_remember _ _ (registers.mem_remembered_iff _)
  | clear _ | reserve _ _ | singleton _ _ | collect _ _ | extend _ _ | copy _ _ | unite _ _ => rfl

/-- A history does to the registers what it does to the sets. -/
theorem denoted_executeAll (history : List Instruction) :
    (executeAll {} history).denoted = Denoted.afterAll history :=
  -- Empty registers denote empty sets, and each step is carried over.
  (List.foldl_hom denoted fun registers instruction =>
    (registers.denoted_execute instruction).symm).symm

end Registers

end StateSet

end WordAutomata
