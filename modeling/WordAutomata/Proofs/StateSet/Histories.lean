import WordAutomata.Proofs.StateSet.Blocks

/-!
# A set is its members, whatever its history

Any history of instructions can be carried out three times: on the ascending
lists of members, on mathematical sets, and on vectors of bits whose lengths
depend on the history.  All three give the same answers, and the lists and the
vectors denote the mathematical sets after the history.  So nothing that can be
observed depends on anything but the members: neither on the order in which they
were added, nor on the room that a vector has, nor on how keys are hashed.
-/

namespace WordAutomata

open StateSet (Instruction Answer Registers)

/-! ## Registers of vectors -/

/-- A vector of bits in each register, and the different vectors that were remembered. -/
structure Stored (β : Type) [BitVector β] where
  content : Nat → β := fun _ => BitVector.blank 0
  remembered : List β := []

namespace Stored

open BitVector

variable {β : Type} [BitVector β] (hasher : Hasher)

def assign (stored : Stored β) (register : Nat) (vector : β) : Stored β :=
  { stored with
    content := fun other => if other = register then vector else stored.content other }

/-- Carries out an instruction on vectors; remembered ones are found by their hashes. -/
def execute (stored : Stored β) : Instruction → Stored β × Answer
  | .clear register => (stored.assign register (blank 0), .done)
  | .reserve register capacity => (stored.assign register (blank capacity), .done)
  | .singleton register state => (stored.assign register (insert (blank 0) state).1, .done)
  | .collect register states => (stored.assign register (extend (blank 0) states), .done)
  | .extend register states =>
      (stored.assign register (extend (stored.content register) states), .done)
  | .copy register other => (stored.assign register (stored.content other), .done)
  | .unite register other =>
      (stored.assign register (either (stored.content register) (stored.content other)), .done)
  | .insert register state =>
      let result := insert (stored.content register) state
      (stored.assign register result.1, .truth result.2)
  | .remove register state =>
      let result := remove (stored.content register) state
      (stored.assign register result.1, .truth result.2)
  | .contains register state => (stored, .truth (bit (stored.content register) state))
  | .isEmpty register => (stored, .truth (isEmpty (stored.content register)))
  | .intersects register other =>
      (stored, .truth !(isDisjoint (stored.content register) (stored.content other)))
  | .isSubset register other =>
      (stored, .truth (isSubset (stored.content register) (stored.content other)))
  | .equal register other =>
      (stored, .truth (equals (stored.content register) (stored.content other)))
  | .order register other =>
      (stored, .order (order (stored.content register) (stored.content other)))
  | .text register =>
      (stored, .text (renderBraced ((members (stored.content register)).map render)))
  | .list register => (stored, .states (members (stored.content register)))
  | .remember register =>
      let vector := stored.content register
      if stored.remembered.any (sameKey hasher · vector) then
        (stored, .truth false)
      else
        ({ stored with remembered := vector :: stored.remembered }, .truth true)

/-- Carries out a history of instructions. -/
def executeAll (stored : Stored β) (history : List Instruction) : Stored β :=
  history.foldl (fun current instruction => (current.execute hasher instruction).1) stored

/-- The mathematical sets that the vectors stand for. -/
def denoted (stored : Stored β) : Denoted :=
  .ofContents toFinset stored.content stored.remembered

theorem denoted_assign (stored : Stored β) (register : Nat) {vector : β}
    {denoted : Finset Nat} (same : toFinset vector = denoted) :
    (stored.assign register vector).denoted = stored.denoted.assign register denoted :=
  same ▸ Denoted.ofContents_assign _ _ _ register vector

variable [LawfulBitVector β]

/-- A remembered vector is found if it denotes the same set. -/
theorem any_sameKey_iff (stored : Stored β) (vector : β) :
    stored.remembered.any (sameKey hasher · vector) = true ↔
      toFinset vector ∈ stored.denoted.remembered := by
  rw [denoted, Denoted.mem_remembered_ofContents, List.any_eq_true]
  simp only [sameKey_iff]

theorem denoted_start : ({} : Stored β).denoted = .start := by
  ext1
  · funext register
    exact toFinset_blank 0
  · rfl

/-- One instruction does to the vectors what it does to the sets. -/
theorem denoted_execute (stored : Stored β) (instruction : Instruction) :
    (stored.execute hasher instruction).1.denoted = stored.denoted.after instruction := by
  cases instruction with
  | clear register => exact stored.denoted_assign register (toFinset_blank 0)
  | reserve register capacity => exact stored.denoted_assign register (toFinset_blank capacity)
  | singleton register state => exact stored.denoted_assign register (toFinset_insert_blank state)
  | collect register states => exact stored.denoted_assign register (toFinset_extend_blank states)
  | extend register states => exact stored.denoted_assign register (toFinset_extend _ states)
  | copy register other => exact stored.denoted_assign register rfl
  | unite register other => exact stored.denoted_assign register (toFinset_either _ _)
  | insert register state => exact stored.denoted_assign register (toFinset_insert _ state)
  | remove register state => exact stored.denoted_assign register (toFinset_remove _ state)
  | remember register =>
      have known := stored.any_sameKey_iff hasher (stored.content register)
      rw [execute]
      split
      · next found =>
          have member := (Denoted.mem_remembered_ofContents _ _ _ _).1 (known.1 found)
          exact Denoted.ofContents_remember_of_mem _ _ _ member
      · exact Denoted.ofContents_remember_cons _ _ _ register
  | contains _ _ | isEmpty _ | intersects _ _ | isSubset _ _ | equal _ _ | order _ _ | text _
  | list _ => rfl

/-- The answer to an instruction depends on the denoted sets alone. -/
theorem answer_execute (stored : Stored β) (instruction : Instruction) :
    (stored.execute hasher instruction).2 = stored.denoted.answer instruction := by
  cases instruction with
  | insert register state => exact congrArg Answer.truth (insert_isNew _ state)
  | remove register state => exact congrArg Answer.truth (remove_wasMember _ state)
  | contains register state => exact congrArg Answer.truth (bit_eq_decide _ state)
  | isEmpty register => exact congrArg Answer.truth (isEmpty_eq_decide _)
  | intersects register other =>
      have apart := isDisjoint_eq_decide (stored.content register) (stored.content other)
      rw [execute, apart, decide_not, Bool.not_not]
      rfl
  | isSubset register other => exact congrArg Answer.truth (isSubset_eq_decide _ _)
  | equal register other => exact congrArg Answer.truth (equals_eq_decide _ _)
  | order register other => exact congrArg Answer.order (order_eq_dictionaryOrder _ _)
  | text register =>
      simp only [execute, Denoted.answer, denoted, Denoted.ofContents, sort_toFinset]
  | list register => exact congrArg Answer.states (sort_toFinset (stored.content register)).symm
  | remember register => exact Denoted.answer_remember _ _ (stored.any_sameKey_iff hasher _)
  | clear _ | reserve _ _ | singleton _ _ | collect _ _ | extend _ _ | copy _ _ | unite _ _ => rfl

/-- A history does to the vectors what it does to the sets. -/
theorem denoted_executeAll (history : List Instruction) :
    (executeAll hasher ({} : Stored β) history).denoted = Denoted.afterAll history := by
  have first : ({} : Stored β).denoted = .start := denoted_start
  rw [Denoted.afterAll, ← first]
  exact (List.foldl_hom denoted fun stored instruction =>
    (stored.denoted_execute hasher instruction).symm).symm

end Stored

/-! ## Nothing but the members can be observed -/

/-- The registers hold the given sets, and all that can be seen of them are the sets. -/
structure StateSet.Registers.Holds (registers : Registers) (sets : Denoted) : Prop where
  mem_iff : ∀ register state,
    state ∈ registers.content register ↔ state ∈ sets.content register
  members_eq : ∀ register,
    (registers.content register).members = (sets.content register).sort
  size_eq : ∀ register, (registers.content register).size = (sets.content register).card
  eq_iff : ∀ register other,
    registers.content register = registers.content other ↔
      sets.content register = sets.content other
  answer_eq : ∀ instruction, (registers.execute instruction).2 = sets.answer instruction

theorem StateSet.Registers.holds_denoted (registers : Registers) :
    registers.Holds registers.denoted where
  mem_iff _ state := (mem_toFinset _ state).symm
  members_eq _ := (sort_toFinset _).symm
  size_eq _ := (card_toFinset _).symm
  eq_iff _ _ := toFinset_inj.symm
  answer_eq := registers.answer_execute

open BitVector in
/--
The vectors hold the given sets, and all that can be seen of them are the sets.
In a table, vectors that hold the same set are one key, whatever the hasher is.
-/
structure Stored.Holds {β : Type} [BitVector β] (hasher : Hasher) (stored : Stored β)
    (sets : Denoted) : Prop where
  bit_iff : ∀ register state,
    bit (stored.content register) state = true ↔ state ∈ sets.content register
  members_eq : ∀ register, members (stored.content register) = (sets.content register).sort
  count_eq : ∀ register, count (stored.content register) = (sets.content register).card
  equals_iff : ∀ register other,
    equals (stored.content register) (stored.content other) = true ↔
      sets.content register = sets.content other
  hash_eq : ∀ register other, sets.content register = sets.content other →
    hash hasher (stored.content register) = hash hasher (stored.content other)
  answer_eq : ∀ instruction, (stored.execute hasher instruction).2 = sets.answer instruction
  lookup?_store : ∀ {γ : Type} (table : List (β × γ)) (register other : Nat) (value : γ),
    lookup? hasher (store hasher table (stored.content register) value) (stored.content other) =
      if sets.content register = sets.content other then some value
      else lookup? hasher table (stored.content other)
  length_store : ∀ {γ : Type} (table : List (β × γ)) (register other : Nat) (value later : γ),
    sets.content register = sets.content other →
      let once := store hasher table (stored.content register) value
      (store hasher once (stored.content other) later).length = once.length

theorem Stored.holds_denoted {β : Type} [BitVector β] [LawfulBitVector β]
    (hasher : Hasher) (stored : Stored β) :
    stored.Holds hasher stored.denoted where
  bit_iff _ state := (BitVector.mem_toFinset _ state).symm
  members_eq _ := (BitVector.sort_toFinset _).symm
  count_eq _ := (BitVector.card_toFinset _).symm
  equals_iff _ _ := by
    rw [BitVector.equals_eq_decide, decide_eq_true_iff]
    rfl
  hash_eq _ _ same := BitVector.hash_congr hasher same
  answer_eq := stored.answer_execute hasher
  lookup?_store table _ _ value := BitVector.lookup?_store hasher table _ _ value
  length_store table register other value later same := by
    intro once
    have found : BitVector.lookup? hasher once (stored.content other) = some value :=
      (BitVector.lookup?_store hasher table _ _ value).trans (if_pos same)
    rw [BitVector.length_store, found]
    rfl

/-- A hasher that mixes the numbers by rotations, exclusive or, and multiplication. -/
def rotatingHasher : Hasher where
  State := UInt64
  start := 0
  write hash number :=
    ((hash <<< 5 ||| hash >>> 59) ^^^ number.toUInt64) * 0x517cc1b727220a95
  finish := id

/-- Makes two sets with the same members, one with much room and one that was larger before. -/
def StateSet.regrown : List Instruction :=
  [.reserve 0 128, .extend 0 [5, 1, 3], .collect 1 [3, 5, 1, 1], .insert 1 70, .remove 1 70,
    .remember 0]

def Stored.regrown : Stored Blocks :=
  executeAll rotatingHasher {} StateSet.regrown

end WordAutomata
