import WordAutomata.StateSet.Basic

/-!
# Registers of state sets

A history of operations on state sets is written down as a list of
instructions for numbered registers.  All registers are empty at first.  Each
instruction names the register that it works on, possibly changes that
register, and gives an answer.  Besides the registers there is one collection
of remembered sets, in which a set counts as new the first time that it is
remembered.
-/

namespace WordAutomata.StateSet

inductive Instruction where
  | clear (register : Nat)
  /-- Empties a register and makes room for the states below the capacity. -/
  | reserve (register : Nat) (capacity : Nat)
  | singleton (register : Nat) (state : Nat)
  | collect (register : Nat) (states : List Nat)
  | extend (register : Nat) (states : List Nat)
  | copy (register : Nat) (other : Nat)
  | unite (register : Nat) (other : Nat)
  /-- Adds a state, and answers whether it was absent. -/
  | insert (register : Nat) (state : Nat)
  /-- Takes a state away, and answers whether it was present. -/
  | remove (register : Nat) (state : Nat)
  | contains (register : Nat) (state : Nat)
  | isEmpty (register : Nat)
  | intersects (register : Nat) (other : Nat)
  | isSubset (register : Nat) (other : Nat)
  | equal (register : Nat) (other : Nat)
  | order (register : Nat) (other : Nat)
  | text (register : Nat)
  | list (register : Nat)
  /-- Remembers the set of a register, and answers whether it is new. -/
  | remember (register : Nat)

namespace Instruction

def register : Instruction → Nat
  | .clear register | .reserve register _ | .singleton register _ | .collect register _
  | .extend register _ | .copy register _ | .unite register _ | .insert register _
  | .remove register _ | .contains register _ | .isEmpty register | .intersects register _
  | .isSubset register _ | .equal register _ | .order register _ | .text register
  | .list register | .remember register => register

end Instruction

inductive Answer where
  | done
  | truth (value : Bool)
  | order (value : Ordering)
  | text (value : String)
  | states (values : List Nat)
  deriving DecidableEq

/-- The contents of all registers and the remembered sets. -/
structure Registers where
  content : Nat → StateSet := fun _ => ∅
  /-- The different sets that were remembered, the latest first. -/
  remembered : List StateSet := []

namespace Registers

def assign (registers : Registers) (register : Nat) (set : StateSet) : Registers :=
  { registers with
    content := fun other => if other = register then set else registers.content other }

def execute (registers : Registers) : Instruction → Registers × Answer
  | .clear register => (registers.assign register ∅, .done)
  | .reserve register _ => (registers.assign register ∅, .done)
  | .singleton register state => (registers.assign register (.singleton state), .done)
  | .collect register states => (registers.assign register (.ofList states), .done)
  | .extend register states =>
      (registers.assign register ((registers.content register).insertMany states), .done)
  | .copy register other => (registers.assign register (registers.content other), .done)
  | .unite register other =>
      (registers.assign register (registers.content register ∪ registers.content other), .done)
  | .insert register state =>
      let set := registers.content register
      (registers.assign register (set.insert state), .truth (state ∉ set))
  | .remove register state =>
      let set := registers.content register
      (registers.assign register (set.erase state), .truth (state ∈ set))
  | .contains register state => (registers, .truth (state ∈ registers.content register))
  | .isEmpty register => (registers, .truth (registers.content register).isEmpty)
  | .intersects register other =>
      (registers, .truth ((registers.content register).intersects (registers.content other)))
  | .isSubset register other =>
      (registers, .truth ((registers.content register).isSubset (registers.content other)))
  | .equal register other =>
      (registers, .truth (registers.content register = registers.content other))
  | .order register other =>
      (registers, .order (compare (registers.content register) (registers.content other)))
  | .text register => (registers, .text (render (registers.content register)))
  | .list register => (registers, .states (registers.content register).members)
  | .remember register =>
      let set := registers.content register
      if set ∈ registers.remembered then
        (registers, .truth false)
      else
        ({ registers with remembered := set :: registers.remembered }, .truth true)

/-- Carries out a history of instructions. -/
def executeAll (registers : Registers) (history : List Instruction) : Registers :=
  history.foldl (fun current instruction => (current.execute instruction).1) registers

end Registers

end WordAutomata.StateSet
