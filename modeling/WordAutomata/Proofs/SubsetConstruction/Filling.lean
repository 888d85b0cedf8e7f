import WordAutomata.Proofs.Search.Ending
import WordAutomata.Proofs.SubsetConstruction.WellFormed
import WordAutomata.Proofs.Tabulated

/-!
# Filling the table while sets are met

The subset construction can keep one flat table and write each cell when it
follows the edge of that cell.  A row is added when a set is met for the first
time, and it is filled when the set is popped; the row of the empty set is
filled at once, because the empty set is never popped.  Sets are referred to by
their numbers throughout, so every look-up of a set and every write has to stay
within what is there.

This file states the construction with every access checked, and what one
number or one row adds to what is held.
-/

namespace WordAutomata

/-! ## Flat tables -/

/-- Writes one cell; nothing if there is no such cell. -/
def write? (table : List StateSet) (place : Nat) (set : StateSet) : Option (List StateSet) :=
  if place < table.length then some (table.set place set) else none

/-- The table with the given number of cells; cells that were not there before are empty. -/
def resized (count : Nat) (table : List StateSet) : List StateSet :=
  table.take count ++ List.replicate (count - table.length) ∅

namespace Automaton

variable {α : Type}

/-! ## The construction with checked accesses -/

/-- What the construction holds while it runs. -/
structure Filling where
  /-- The sets that were met; the number of a set is its place. -/
  subsets : List StateSet
  /-- The sets that were met, with their numbers. -/
  numbers : List (StateSet × Nat)
  /-- A row for each set, with a column for each symbol and a last one for the empty label. -/
  table : List StateSet
  /-- The numbers of the sets that are still to be expanded. -/
  queue : List Nat
  /-- The numbers that were taken from the queue. -/
  popped : List Nat
  /-- How many sets were computed by reading a symbol. -/
  reads : Nat

/-- Lets every symbol lead from a state to itself. -/
def loop? (automaton : Automaton α) (number : Nat) (table : List StateSet) :
    Option (List StateSet) :=
  (List.range automaton.alphabet.size).foldlM
    (fun table column => write? table (automaton.cellPlace number column) (.singleton number)) table

variable [DecidableEq α]

/-- The construction has met what is active at first. -/
def firstFilling (automaton : Automaton α) : Filling where
  subsets := [automaton.start]
  numbers := [(automaton.start, 0)]
  table := resized (automaton.cellPlace 1 0) []
  queue := [0]
  popped := []
  reads := 0

/--
The number of a set.  A set that is met for the first time gets the next number
and a row of its own; unless it is empty, it is put into the queue.
-/
def meet? (automaton : Automaton α) (filling : Filling) (subset : StateSet) :
    Option (Filling × Nat) :=
  match filling.numbers.lookup subset with
  | some number => some (filling, number)
  | none =>
      let number := filling.subsets.length
      let met : Filling :=
        { filling with
          subsets := filling.subsets ++ [subset]
          numbers := filling.numbers ++ [(subset, number)]
          table := resized (automaton.cellPlace (number + 1) 0) filling.table }
      if subset.isEmpty then
        (automaton.loop? number met.table).map fun table => ({ met with table := table }, number)
      else
        some ({ met with queue := met.queue ++ [number] }, number)

/-- Computes where a symbol leads from a popped set, and writes the cell. -/
def fillCell? (automaton : Automaton α) (source : Nat) (filling : Filling) (cell : α × Nat) :
    Option Filling := do
  let subset ← filling.subsets[source]?
  let (met, target) ← automaton.meet? filling (automaton.read subset cell.1)
  let table ← write? met.table (automaton.cellPlace source cell.2) (.singleton target)
  return { met with table := table, reads := met.reads + 1 }

/-- Fills the row of a set that was taken from the queue, of which `rest` remains. -/
def fillRow? (automaton : Automaton α) (filling : Filling) (source : Nat) (rest : List Nat) :
    Option Filling :=
  automaton.alphabet.symbols.zipIdx.foldlM (automaton.fillCell? source)
    { filling with queue := rest, popped := filling.popped ++ [source] }

/-- Fills at most `bound` rows, until the queue is empty; nothing if an access is out of range. -/
def fill? (automaton : Automaton α) : Nat → Filling → Option Filling
  | 0, filling => some filling
  | bound + 1, filling =>
      match filling.queue with
      | [] => some filling
      | source :: rest => (automaton.fillRow? filling source rest).bind (automaton.fill? bound)

end Automaton

/-! ## Cells of flat tables -/

theorem write?_eq_some {table : List StateSet} {place : Nat} (within : place < table.length)
    (set : StateSet) :
    write? table place set = some (table.set place set) :=
  if_pos within

theorem length_resized (count : Nat) (table : List StateSet) :
    (resized count table).length = count := by
  simp only [resized, List.length_append, List.length_take, List.length_replicate]
  omega

/-- A table that grows keeps its cells. -/
theorem getElem?_resized_of_lt {count place : Nat} {table : List StateSet}
    (within : place < table.length) (grown : table.length ≤ count) :
    (resized count table)[place]? = table[place]? := by
  rw [resized, List.take_of_length_le grown, List.getElem?_append_left within]

theorem getElem?_resized_of_le {count place : Nat} {table : List StateSet}
    (new : table.length ≤ place) (within : place < count) :
    (resized count table)[place]? = some ∅ := by
  have grown : table.length ≤ count := by omega
  rw [resized, List.take_of_length_le grown, List.getElem?_append_right new,
    List.getElem?_replicate, if_pos (by omega)]

namespace Automaton

variable {α : Type} (automaton : Automaton α)

theorem cellPlace_lt {row rows column : Nat} (within : row < rows)
    (narrow : column ≤ automaton.alphabet.size) :
    automaton.cellPlace row column < automaton.cellPlace rows 0 := by
  have next : (row + 1) * (automaton.alphabet.size + 1) ≤ rows * (automaton.alphabet.size + 1) :=
    Nat.mul_le_mul_right _ within
  rw [Nat.succ_mul] at next
  simp only [cellPlace]
  omega

/-- Different cells stand in different places. -/
theorem cellPlace_inj {row row' column column' : Nat} (narrow : column ≤ automaton.alphabet.size)
    (narrow' : column' ≤ automaton.alphabet.size) :
    automaton.cellPlace row column = automaton.cellPlace row' column' ↔
      row = row' ∧ column = column' := by
  constructor
  · intro same
    rcases Nat.lt_trichotomy row row' with before | rfl | behind
    · have smaller := automaton.cellPlace_lt before narrow
      simp only [cellPlace] at same smaller
      omega
    · exact ⟨rfl, Nat.add_left_cancel same⟩
    · have smaller := automaton.cellPlace_lt behind narrow'
      simp only [cellPlace] at same smaller
      omega
  · rintro ⟨rfl, rfl⟩
    rfl

/-- The row of a state that every symbol leads to itself can be written, and nothing else is. -/
theorem exists_loop? {number : Nat} {table : List StateSet}
    (enough : automaton.cellPlace (number + 1) 0 ≤ table.length) :
    ∃ looped, automaton.loop? number table = some looped ∧ looped.length = table.length ∧
      (∀ column < automaton.alphabet.size,
        looped[automaton.cellPlace number column]? = some (.singleton number)) ∧
      ∀ place, (∀ column < automaton.alphabet.size, place ≠ automaton.cellPlace number column) →
        looped[place]? = table[place]? := by
  suffices general : ∀ count ≤ automaton.alphabet.size, ∃ looped,
      (List.range count).foldlM (fun table column =>
          write? table (automaton.cellPlace number column) (.singleton number)) table =
        some looped ∧ looped.length = table.length ∧
      (∀ column < count, looped[automaton.cellPlace number column]? = some (.singleton number)) ∧
      ∀ place, (∀ column < count, place ≠ automaton.cellPlace number column) →
        looped[place]? = table[place]? from
    general _ (Nat.le_refl _)
  intro count narrow
  induction count with
  | zero => exact ⟨table, rfl, rfl, by omega, fun _ _ => rfl⟩
  | succ count inductionHypothesis =>
      rcases inductionHypothesis (by omega) with ⟨looped, wrote, length, filled, kept⟩
      have within : automaton.cellPlace number count < looped.length := by
        rw [length]
        exact Nat.lt_of_lt_of_le
          (automaton.cellPlace_lt (Nat.lt_succ_self number) (by omega)) enough
      refine ⟨looped.set (automaton.cellPlace number count) (.singleton number), ?_, ?_, ?_, ?_⟩
      · rw [List.range_succ, List.foldlM_append, wrote]
        simp [write?_eq_some within]
      · rw [List.length_set, length]
      · intro column before
        rw [List.getElem?_set]
        split
        · rfl
        · next different =>
            apply filled
            by_contra last
            exact different (congrArg (automaton.cellPlace number) (by omega))
      · intro place outside
        rw [List.getElem?_set_ne fun same => outside count (Nat.lt_succ_self count) same.symm]
        exact kept place fun column before => outside column (Nat.lt_succ_of_lt before)

/-! ## Meeting a set -/

/-- What is held after a set was met for the first time, with the given table. -/
def Filling.grown (filling : Filling) (subset : StateSet) (table : List StateSet) : Filling :=
  { filling with
    subsets := filling.subsets ++ [subset]
    numbers := filling.numbers ++ [(subset, filling.subsets.length)]
    table := table
    queue := if subset.isEmpty then filling.queue else filling.queue ++ [filling.subsets.length] }

/--
The table has one more row than before, in which nothing is written yet.  If the
set of the row is empty, every symbol leads back to it.
-/
structure HasNewRow (automaton : Automaton α) (number : Nat) (subset : StateSet)
    (before after : List StateSet) : Prop where
  length_eq : after.length = automaton.cellPlace (number + 1) 0
  kept : ∀ place < before.length, after[place]? = before[place]?
  silent : after[automaton.cellPlace number automaton.alphabet.size]? = some ∅
  looping : subset = ∅ → ∀ column < automaton.alphabet.size,
    after[automaton.cellPlace number column]? = some (.singleton number)

/-- A set that is met for the first time gets the next number and a new row. -/
theorem exists_meet?_of_fresh (automaton : Automaton α) {filling : Filling} {subset : StateSet}
    (fresh : filling.numbers.lookup subset = none)
    (length : filling.table.length = automaton.cellPlace filling.subsets.length 0) :
    ∃ table, automaton.meet? filling subset =
        some (filling.grown subset table, filling.subsets.length) ∧
      automaton.HasNewRow filling.subsets.length subset filling.table table := by
  have larger : filling.table.length ≤ automaton.cellPlace (filling.subsets.length + 1) 0 := by
    rw [length]
    exact (automaton.cellPlace_lt (Nat.lt_succ_self _) (Nat.zero_le _)).le
  have silent := automaton.cellPlace_lt (Nat.lt_succ_self filling.subsets.length)
    (Nat.le_refl automaton.alphabet.size)
  -- The row is behind everything that was there before.
  have behind : ∀ column, filling.table.length ≤
      automaton.cellPlace filling.subsets.length column := by
    intro column
    rw [length]
    exact Nat.add_le_add_left (Nat.zero_le column) _
  rw [meet?, fresh]
  cases empty : subset.isEmpty with
  | false =>
      refine ⟨_, ?_, length_resized _ _, fun place within => getElem?_resized_of_lt within larger,
        getElem?_resized_of_le (behind _) silent, ?_⟩
      · simp [Filling.grown, empty]
      · rintro rfl
        cases empty
  | true =>
      rcases automaton.exists_loop? (Nat.le_of_eq (length_resized
          (automaton.cellPlace (filling.subsets.length + 1) 0) filling.table).symm) with
        ⟨looped, wrote, length', filled, kept⟩
      refine ⟨looped, ?_, ?_, ?_, ?_, fun _ => filled⟩
      · simp [Filling.grown, empty, wrote]
      · rw [length', length_resized]
      · intro place within
        rw [kept, getElem?_resized_of_lt within larger]
        intro column _ same
        have := behind column
        omega
      · rw [kept, getElem?_resized_of_le (behind _) silent]
        intro column narrow same
        have := ((automaton.cellPlace_inj (Nat.le_refl _) narrow.le).1 same).2
        omega

end Automaton

end WordAutomata
