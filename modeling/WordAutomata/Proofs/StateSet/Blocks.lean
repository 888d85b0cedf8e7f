import WordAutomata.Proofs.StateSet.BitVector

/-!
# Vectors of bits that consist of blocks

A vector can keep its bits in blocks of one width and grow by whole blocks.  A
position is then told from others by its block and by its place in the block, and
a block that is missing reads as one in which no bit is set.  A walk goes from
block to block, and what it finds is all that comparisons and hashes look at:
blocks without a set bit may follow.
-/

namespace WordAutomata

/-- A vector that consists of blocks of 32 bits, and grows by whole blocks. -/
structure Blocks where
  blocks : List (BitVec 32)
  deriving DecidableEq

namespace Blocks

/-- How many blocks there are in a given number of bits. -/
def needed (room : Nat) : Nat :=
  (room + 31) / 32

/-- A missing block reads as one in which no bit is set. -/
def block (vector : Blocks) (place : Nat) : BitVec 32 :=
  vector.blocks[place]?.getD 0

def blank (room : Nat) : Blocks :=
  ⟨List.replicate (needed room) 0⟩

def grow (vector : Blocks) (room : Nat) : Blocks :=
  ⟨vector.blocks ++ List.replicate (needed room - vector.blocks.length) 0⟩

/-- A block with one of its bits changed. -/
def writeBlock (old : BitVec 32) (position : Nat) (value : Bool) : BitVec 32 :=
  if value then old ||| BitVec.twoPow 32 position else old &&& ~~~BitVec.twoPow 32 position

def write (vector : Blocks) (position : Nat) (value : Bool) : Blocks :=
  ⟨vector.blocks.modify (position / 32) (writeBlock · (position % 32) value)⟩

def either (left right : Blocks) : Blocks :=
  ⟨(List.range (max left.blocks.length right.blocks.length)).map fun place =>
    left.block place ||| right.block place⟩

/-- The positions of the set bits, block by block. -/
def walk (vector : Blocks) : List Nat :=
  (List.range vector.blocks.length).flatMap fun place =>
    ((List.range 32).filter (vector.block place).getLsbD).map (32 * place + ·)

instance : BitVector Blocks where
  length vector := 32 * vector.blocks.length
  bit vector position := (vector.block (position / 32)).getLsbD (position % 32)
  blank := blank
  grow := grow
  write := write
  either := either
  equals left right := left.walk == right.walk
  order left right := compare left.walk right.walk
  hashInto vector hasher state := vector.walk.foldl hasher.write state

theorem block_of_length_le {vector : Blocks} {place : Nat}
    (missing : vector.blocks.length ≤ place) :
    vector.block place = 0 := by
  rw [block, List.getElem?_eq_none missing]
  rfl

theorem block_blank (room place : Nat) : (blank room).block place = 0 := by
  rw [block, blank, List.getElem?_replicate]
  split <;> rfl

theorem block_grow (vector : Blocks) (room place : Nat) :
    (vector.grow room).block place = vector.block place := by
  rcases Nat.lt_or_ge place vector.blocks.length with within | missing
  · exact congrArg (·.getD 0) (List.getElem?_append_left within)
  · rw [block_of_length_le missing, block, grow, List.getElem?_append_right missing,
      List.getElem?_replicate]
    split <;> rfl

theorem block_either (left right : Blocks) (place : Nat) :
    (left.either right).block place = left.block place ||| right.block place := by
  rcases Nat.lt_or_ge place (max left.blocks.length right.blocks.length) with within | missing
  · rw [block, either, List.getElem?_map, List.getElem?_range within]
    rfl
  · rw [block_of_length_le (Nat.le_trans (Nat.le_max_left _ _) missing),
      block_of_length_le (Nat.le_trans (Nat.le_max_right _ _) missing), block_of_length_le]
    · rfl
    · rwa [either, List.length_map, List.length_range]

theorem block_write {vector : Blocks} {position : Nat}
    (within : position / 32 < vector.blocks.length) (value : Bool) (place : Nat) :
    (vector.write position value).block place =
      if place = position / 32 then writeBlock (vector.block place) (position % 32) value
      else vector.block place := by
  rw [block, write]
  split
  · next same =>
      rw [same, List.getElem?_modify_eq, block, List.getElem?_eq_getElem within]
      rfl
  · next other =>
      rw [List.getElem?_modify_ne _ _ (Ne.symm other)]
      rfl

theorem getLsbD_writeBlock (old : BitVec 32) {position : Nat} (value : Bool) {other : Nat}
    (reachable : other < 32) :
    (writeBlock old position value).getLsbD other =
      if other = position then value else old.getLsbD other := by
  rw [writeBlock]
  by_cases same : position = other
  · subst same
    cases value <;> simp [reachable]
  · cases value <;> simp [reachable, Ne.symm same]

/-- A walk from block to block meets the same positions as a walk from bit to bit. -/
theorem members_eq_walk (vector : Blocks) : BitVector.members vector = vector.walk := by
  have bits : ∀ place, ∀ offset ∈ List.range 32,
      BitVector.bit vector (32 * place + offset) = (vector.block place).getLsbD offset := by
    intro place offset inside
    have small := List.mem_range.1 inside
    have block : (32 * place + offset) / 32 = place := by omega
    have within : (32 * place + offset) % 32 = offset := by omega
    show (vector.block ((32 * place + offset) / 32)).getLsbD ((32 * place + offset) % 32) = _
    rw [block, within]
  show (List.range (32 * vector.blocks.length)).filter (BitVector.bit vector) = _
  rw [range_mul, List.filter_flatMap, walk]
  apply List.flatMap_congr
  intro place _
  rw [List.filter_map]
  exact congrArg _ (List.filter_congr (bits place))

instance : LawfulBitVector Blocks where
  bit_missing := by
    intro vector position missing
    have behind : vector.block (position / 32) = 0 :=
      block_of_length_le ((Nat.le_div_iff_mul_le (by decide)).2 (Nat.mul_comm _ _ ▸ missing))
    exact (congrArg (·.getLsbD (position % 32)) behind).trans BitVec.getLsbD_zero
  bit_blank := by
    intro room position
    exact (congrArg (·.getLsbD (position % 32)) (block_blank room _)).trans BitVec.getLsbD_zero
  le_length_grow := by
    intro vector room
    change room ≤ 32 * (vector.blocks ++ List.replicate _ 0).length
    rw [List.length_append, List.length_replicate, needed]
    omega
  bit_grow := by
    intro vector room position
    exact congrArg (·.getLsbD (position % 32)) (block_grow vector room _)
  bit_write := by
    intro vector position value within other
    have inside : position / 32 < vector.blocks.length := Nat.div_lt_of_lt_mul within
    have changed := congrArg (·.getLsbD (other % 32)) (block_write inside value (other / 32))
    refine changed.trans ?_
    -- Two positions in one block are told apart by their places in it.
    by_cases sameBlock : other / 32 = position / 32
    · have samePlace : other % 32 = position % 32 ↔ other = position := by omega
      simp only [sameBlock, if_true, getLsbD_writeBlock _ value (Nat.mod_lt other (by decide)),
        samePlace]
      split
      · rfl
      · exact congrArg (fun place => (vector.block place).getLsbD (other % 32)) sameBlock.symm
    · have different : other ≠ position := fun same => sameBlock (congrArg (· / 32) same)
      simp only [sameBlock, different, if_false]
      rfl
  bit_either := by
    intro left right position
    exact (congrArg (·.getLsbD (position % 32)) (block_either left right _)).trans
      BitVec.getLsbD_or
  equals_eq := by
    intro left right
    rw [members_eq_walk, members_eq_walk]
    rfl
  order_eq := by
    intro left right
    rw [members_eq_walk, members_eq_walk]
    rfl
  hashInto_eq := by
    intro vector hasher state
    rw [members_eq_walk]
    rfl

end Blocks

end WordAutomata
