import WordAutomata.Render

/-!
# Edge labels

An edge either reads a symbol or reads nothing.  The empty label is a value of
its own, so it is never confused with a symbol, not even with one that has the
same readable form.
-/

namespace WordAutomata

/-- What an edge reads. -/
inductive Label (α : Type) where
  | symbol (value : α)
  | epsilon
  deriving DecidableEq

namespace Label

variable {α : Type}

def isEpsilon : Label α → Bool
  | .symbol _ => false
  | .epsilon => true

/-- The symbol that the label reads, if any. -/
def symbol? : Label α → Option α
  | .symbol value => some value
  | .epsilon => none

@[simp]
theorem isEpsilon_iff (label : Label α) : label.isEpsilon = true ↔ label = .epsilon := by
  cases label <;> simp [isEpsilon]

@[simp]
theorem symbol?_eq_some_iff (label : Label α) (expected : α) :
    label.symbol? = some expected ↔ label = .symbol expected := by
  cases label <;> simp [symbol?]

/-- Labels are ordered by their symbols, and the empty label comes last. -/
def order [Ord α] : Label α → Label α → Ordering
  | .symbol left, .symbol right => compare left right
  | .symbol _, .epsilon => .lt
  | .epsilon, .symbol _ => .gt
  | .epsilon, .epsilon => .eq

instance [Ord α] : Ord (Label α) where
  compare := order

/-- The labels in ascending order; labels that compare equal keep their places. -/
def sorted [Ord α] (labels : List (Label α)) : List (Label α) :=
  labels.mergeSort (fun left right => (compare left right).isLE)

/-- The empty label is written as a small epsilon. -/
instance [Render α] : Render (Label α) where
  render
    | .symbol value => render value
    | .epsilon => "ε"

/-- What a path spells: its symbols in order, with the empty labels left out. -/
def spelled (labels : List (Label α)) : List α :=
  labels.filterMap symbol?

@[simp]
theorem spelled_nil : spelled ([] : List (Label α)) = [] :=
  rfl

@[simp]
theorem spelled_append (first second : List (Label α)) :
    spelled (first ++ second) = spelled first ++ spelled second := by
  simp [spelled]

end Label

end WordAutomata
