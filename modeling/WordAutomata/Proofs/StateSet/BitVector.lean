import Mathlib.Data.Finset.Sort
import WordAutomata.Proofs.Lists
import WordAutomata.Proofs.StateSet.Denotation

/-!
# State sets as vectors of bits

A set of state numbers can be kept in a vector of bits that grows when a number
behind its end is added.  How long such a vector is depends on its history: the
room that was asked for, and the room of members that are gone, stays with it.

This file takes the vectors as given, with their equality, their order and what
they write into a hasher.  It is assumed that a missing bit reads as false, that
the others read as they were written, and that vectors are compared and hashed
by walks that stop at the set bits.  From this it is proved that what can be
observed depends only on which bits are set.
-/

namespace WordAutomata

/-- What numbers are written into, one after the other, until a hash is asked for. -/
structure Hasher where
  State : Type
  start : State
  write : State → Nat → State
  finish : State → UInt64

/-- Vectors of bits that can grow. -/
class BitVector (β : Type) where
  length : β → Nat
  bit : β → Nat → Bool
  /-- A vector of the given length in which no bit is set. -/
  blank : Nat → β
  /-- Adds bits that are not set, until the vector has at least the given length. -/
  grow : β → Nat → β
  /-- Changes a bit that is not missing. -/
  write : β → Nat → Bool → β
  /-- The vector that has a set bit wherever one of the two has one. -/
  either : β → β → β
  equals : β → β → Bool
  order : β → β → Ordering
  /-- What has become of a hasher once the vector is written into it. -/
  hashInto : β → (hasher : Hasher) → hasher.State → hasher.State

/-- The positions of the set bits, found by a walk over the whole vector. -/
def BitVector.members {β : Type} [BitVector β] (vector : β) : List Nat :=
  (List.range (length vector)).filter (bit vector)

open BitVector in
/--
A missing bit reads as false, and the other bits read as they were written.
Vectors are equal if walks over them stop at the same positions, their order is
that of the first positions that differ, and a vector is hashed by the positions
at which a walk over it stops.
-/
class LawfulBitVector (β : Type) [BitVector β] : Prop where
  bit_missing : ∀ (vector : β) (position : Nat), length vector ≤ position →
    bit vector position = false
  bit_blank : ∀ room position : Nat, bit (blank room : β) position = false
  le_length_grow : ∀ (vector : β) (room : Nat), room ≤ length (grow vector room)
  bit_grow : ∀ (vector : β) (room position : Nat),
    bit (grow vector room) position = bit vector position
  bit_write : ∀ (vector : β) (position : Nat) (value : Bool), position < length vector →
    ∀ other, bit (write vector position value) other =
      if other = position then value else bit vector other
  bit_either : ∀ (left right : β) (position : Nat),
    bit (either left right) position = (bit left position || bit right position)
  equals_eq : ∀ left right : β, equals left right = (members left == members right)
  order_eq : ∀ left right : β, order left right = compare (members left) (members right)
  hashInto_eq : ∀ (vector : β) (hasher : Hasher) (state : hasher.State),
    hashInto vector hasher state = (members vector).foldl hasher.write state

namespace BitVector

variable {β : Type} [BitVector β]

/-! ## Operations -/

/-- Sets the bit of a state, and tells whether it was not set before. -/
def insert (vector : β) (state : Nat) : β × Bool :=
  if bit vector state then
    (vector, false)
  else
    (write (grow vector (state + 1)) state true, true)

/-- Clears the bit of a state, and tells whether it was set before. -/
def remove (vector : β) (state : Nat) : β × Bool :=
  if bit vector state then
    (write vector state false, true)
  else
    (vector, false)

def extend (vector : β) (states : List Nat) : β :=
  states.foldl (fun current state => (insert current state).1) vector

def count (vector : β) : Nat :=
  (List.range (length vector)).countP (bit vector)

def isEmpty (vector : β) : Bool :=
  (List.range (length vector)).all fun position => !bit vector position

/-- Whether no bit is set in both vectors, as far as both of them reach. -/
def isDisjoint (left right : β) : Bool :=
  (List.range (min (length left) (length right))).all fun position =>
    !(bit left position && bit right position)

def isSubset (left right : β) : Bool :=
  (List.range (length left)).all fun position => !bit left position || bit right position

/-! ## Tables with vectors as keys -/

section Keys

variable {γ : Type} (hasher : Hasher)

def hash (vector : β) : UInt64 :=
  hasher.finish (hashInto vector hasher hasher.start)

/-- Whether two keys are one: their hashes are compared before the keys are. -/
def sameKey (left right : β) : Bool :=
  hash hasher left == hash hasher right && equals left right

def lookup? (table : List (β × γ)) (key : β) : Option γ :=
  (table.find? fun entry => sameKey hasher entry.1 key).map Prod.snd

/-- Puts a value under a key, in place of the value that is there. -/
def store (table : List (β × γ)) (key : β) (value : γ) : List (β × γ) :=
  match table with
  | [] => [(key, value)]
  | entry :: rest =>
      if sameKey hasher entry.1 key then
        (entry.1, value) :: rest
      else
        entry :: store rest key value

end Keys

/-! ## The denoted sets -/

def toFinset (vector : β) : Finset Nat :=
  (members vector).toFinset

/-- A walk over a vector meets the set bits in ascending order. -/
theorem members_ascending (vector : β) : (members vector).Pairwise (· < ·) :=
  List.pairwise_lt_range.filter _

theorem sort_toFinset (vector : β) : (toFinset vector).sort = members vector :=
  sort_toFinset_of_ascending (members_ascending vector)

theorem card_toFinset (vector : β) : (toFinset vector).card = count vector := by
  rw [toFinset, List.toFinset_card_of_nodup ((members_ascending vector).imp Nat.ne_of_lt),
    members, count, List.countP_eq_length_filter]

theorem toFinset_inj {left right : β} :
    toFinset left = toFinset right ↔ members left = members right := by
  constructor
  · intro same
    rw [← sort_toFinset, ← sort_toFinset, same]
  · intro same
    rw [toFinset, toFinset, same]

section Lawful

open LawfulBitVector

variable [LawfulBitVector β]

theorem lt_length_of_bit {vector : β} {position : Nat} (present : bit vector position = true) :
    position < length vector := by
  by_contra missing
  rw [bit_missing vector position (Nat.le_of_not_lt missing)] at present
  exact Bool.false_ne_true present

@[simp]
theorem mem_toFinset (vector : β) (state : Nat) :
    state ∈ toFinset vector ↔ bit vector state = true := by
  rw [toFinset, List.mem_toFinset, members, List.mem_filter, List.mem_range]
  exact and_iff_right_of_imp lt_length_of_bit

@[simp]
theorem toFinset_blank (room : Nat) : toFinset (blank room : β) = ∅ := by
  ext
  simp [bit_blank]

theorem toFinset_insert (vector : β) (state : Nat) :
    toFinset (insert vector state).1 = Insert.insert state (toFinset vector) := by
  rw [insert]
  split
  · next present =>
      exact (Finset.insert_eq_of_mem ((mem_toFinset vector state).2 present)).symm
  -- The vector has grown before the bit is written, so the bit is there.
  · have within : state < length (grow vector (state + 1)) := le_length_grow vector (state + 1)
    ext other
    rw [mem_toFinset, bit_write _ _ _ within, bit_grow, Finset.mem_insert, mem_toFinset]
    by_cases same : other = state <;> simp [same]

theorem toFinset_remove (vector : β) (state : Nat) :
    toFinset (remove vector state).1 = (toFinset vector).erase state := by
  rw [remove]
  split
  · next present =>
      have within : state < length vector := lt_length_of_bit present
      ext other
      rw [mem_toFinset, bit_write _ _ _ within, Finset.mem_erase, mem_toFinset]
      by_cases same : other = state <;> simp [same]
  · next absent =>
      exact (Finset.erase_eq_of_notMem (mt (mem_toFinset vector state).1 absent)).symm

theorem toFinset_extend (vector : β) (states : List Nat) :
    toFinset (extend vector states) = toFinset vector ∪ states.toFinset := by
  induction states generalizing vector with
  | nil => simp [extend]
  | cons first rest inductionHypothesis =>
      have later := inductionHypothesis (insert vector first).1
      rw [toFinset_insert] at later
      rw [List.toFinset_cons, Finset.union_insert, ← Finset.insert_union]
      exact later

theorem toFinset_insert_blank (state : Nat) :
    toFinset (insert (blank 0 : β) state).1 = {state} := by
  rw [toFinset_insert, toFinset_blank, insert_empty_eq]

theorem toFinset_extend_blank (states : List Nat) :
    toFinset (extend (blank 0 : β) states) = states.toFinset := by
  rw [toFinset_extend, toFinset_blank, Finset.empty_union]

theorem toFinset_either (left right : β) :
    toFinset (either left right) = toFinset left ∪ toFinset right := by
  ext
  simp [bit_either]

/-! ## What can be observed -/

theorem bit_eq_decide (vector : β) (state : Nat) :
    bit vector state = decide (state ∈ toFinset vector) := by
  rw [Bool.eq_iff_iff, decide_eq_true_iff, mem_toFinset]

/-- A state counts as new if it was not a member. -/
theorem insert_isNew (vector : β) (state : Nat) :
    (insert vector state).2 = decide (state ∉ toFinset vector) := by
  rw [decide_not, ← bit_eq_decide, insert]
  cases bit vector state <;> rfl

/-- A state counts as removed if it was a member. -/
theorem remove_wasMember (vector : β) (state : Nat) :
    (remove vector state).2 = decide (state ∈ toFinset vector) := by
  rw [← bit_eq_decide, remove]
  cases bit vector state <;> rfl

theorem isEmpty_eq_decide (vector : β) :
    isEmpty vector = decide (toFinset vector = ∅) := by
  have walked : isEmpty vector = true ↔ ∀ position, (!bit vector position) = true :=
    all_range_iff fun position missing => by rw [bit_missing vector position missing]; rfl
  rw [Bool.eq_iff_iff, walked, decide_eq_true_iff, Finset.eq_empty_iff_forall_notMem]
  simp only [mem_toFinset, Bool.not_eq_true, Bool.not_eq_true']

/-- Behind the end of the shorter vector there is nothing in common. -/
theorem isDisjoint_eq_decide (left right : β) :
    isDisjoint left right = decide (¬ (toFinset left ∩ toFinset right).Nonempty) := by
  have walked : isDisjoint left right = true ↔
      ∀ position, (!(bit left position && bit right position)) = true := by
    refine all_range_iff fun position missing => ?_
    rcases min_le_iff.1 missing with inLeft | inRight
    · rw [bit_missing left position inLeft]
      rfl
    · rw [bit_missing right position inRight, Bool.and_false]
      rfl
  rw [Bool.eq_iff_iff, walked, decide_eq_true_iff, Finset.Nonempty, not_exists]
  refine forall_congr' fun position => ?_
  rw [Finset.mem_inter, mem_toFinset, mem_toFinset]
  cases bit left position <;> simp

/-- Behind the end of the first vector there is nothing to be found in the second one. -/
theorem isSubset_eq_decide (left right : β) :
    isSubset left right = decide (toFinset left ⊆ toFinset right) := by
  have walked : isSubset left right = true ↔
      ∀ position, (!bit left position || bit right position) = true :=
    all_range_iff fun position missing => by rw [bit_missing left position missing]; rfl
  -- Where the second vector is shorter, its missing bits are read.
  rw [Bool.eq_iff_iff, walked, decide_eq_true_iff, Finset.subset_iff]
  refine forall_congr' fun position => ?_
  rw [mem_toFinset, mem_toFinset]
  cases bit left position <;> simp

theorem equals_eq_decide (left right : β) :
    equals left right = decide (toFinset left = toFinset right) := by
  rw [equals_eq, Bool.eq_iff_iff, beq_iff_eq, decide_eq_true_iff, toFinset_inj]

theorem order_eq_dictionaryOrder (left right : β) :
    order left right = dictionaryOrder (toFinset left) (toFinset right) := by
  rw [order_eq, ← compare_sort, sort_toFinset, sort_toFinset]

/-- Vectors stand at the same place of the order exactly if they are equal. -/
theorem order_eq_eq_iff (left right : β) :
    order left right = .eq ↔ equals left right = true := by
  rw [order_eq, equals_eq, Std.compare_eq_iff_eq, beq_iff_eq]

theorem transCmp_order : Std.TransCmp (order : β → β → Ordering) := by
  have walked : (order : β → β → Ordering) = compareOn members :=
    funext₂ order_eq
  rw [walked]
  infer_instance

/-! ## One key for each set -/

section Keys

variable {γ : Type} (hasher : Hasher)

/-- No room and no order of additions is left in a hash. -/
theorem hash_congr {left right : β} (same : toFinset left = toFinset right) :
    hash hasher left = hash hasher right := by
  rw [hash, hash, hashInto_eq, hashInto_eq, toFinset_inj.1 same]

/-- Whatever the hasher is, keys are one exactly if they denote one set. -/
theorem sameKey_iff (left right : β) :
    sameKey hasher left right = true ↔ toFinset left = toFinset right := by
  rw [sameKey, Bool.and_eq_true, equals_eq_decide, decide_eq_true_iff, beq_iff_eq]
  exact and_iff_right_of_imp (hash_congr hasher)

theorem lookup?_cons (entry : β × γ) (table : List (β × γ)) (key : β) :
    lookup? hasher (entry :: table) key =
      if toFinset entry.1 = toFinset key then some entry.2 else lookup? hasher table key := by
  have same := sameKey_iff hasher entry.1 key
  rw [lookup?, List.find?_cons]
  split
  · next found => rw [if_pos (same.1 found), Option.map_some]
  · next other =>
      rw [if_neg fun equal => by simp [same.2 equal] at other]
      rfl

/-- What is stored under a key is found under every key that denotes the same set. -/
theorem lookup?_store (table : List (β × γ)) (key other : β) (value : γ) :
    lookup? hasher (store hasher table key value) other =
      if toFinset key = toFinset other then some value else lookup? hasher table other := by
  induction table with
  | nil => exact lookup?_cons hasher (key, value) [] other
  | cons entry rest inductionHypothesis =>
      rw [store]
      split
      · next same =>
          rw [sameKey_iff] at same
          rw [lookup?_cons, lookup?_cons, same]
          split <;> rfl
      · next different =>
          rw [sameKey_iff] at different
          rw [lookup?_cons, inductionHypothesis, lookup?_cons]
          split
          · next first => rw [if_neg fun same => different (first.trans same.symm)]
          · rfl

/-- A table grows by an entry only if nothing is found under the key. -/
theorem length_store (table : List (β × γ)) (key : β) (value : γ) :
    (store hasher table key value).length =
      table.length + if (lookup? hasher table key).isSome then 0 else 1 := by
  induction table with
  | nil => rfl
  | cons entry rest inductionHypothesis =>
      rw [store, lookup?_cons]
      split
      · next same => simp [(sameKey_iff hasher _ _).1 same]
      · next different =>
          rw [sameKey_iff] at different
          rw [List.length_cons, inductionHypothesis, if_neg different, List.length_cons]
          omega

end Keys

end Lawful

end BitVector

end WordAutomata
