import WordAutomata.Label
import WordAutomata.Refusal
import WordAutomata.Repetition

/-!
# Alphabets

An alphabet is a list of different symbols.  The order of the list matters: it
is the order of the columns of a transition table and the order in which
searches explore the edges of a state.
-/

namespace WordAutomata

/-- A list of different symbols in a declared order. -/
structure Alphabet (α : Type) where
  symbols : List α
  nodup : symbols.Nodup
  deriving DecidableEq

namespace Alphabet

variable {α : Type}

def size (alphabet : Alphabet α) : Nat :=
  alphabet.symbols.length

def symbolAt? (alphabet : Alphabet α) (position : Nat) : Option α :=
  alphabet.symbols[position]?

/-- All labels of edges over the alphabet, the empty label last. -/
def labels (alphabet : Alphabet α) : List (Label α) :=
  alphabet.symbols.map .symbol ++ [.epsilon]

/--
All words of the given length, in the order of the alphabet with the first
symbol of a word most significant.
-/
def words (alphabet : Alphabet α) : Nat → List (List α)
  | 0 => [[]]
  | length + 1 =>
      alphabet.symbols.flatMap fun first =>
        (alphabet.words length).map (first :: ·)

/-- An alphabet is written as its symbols between braces. -/
instance [Render α] : Render (Alphabet α) where
  render alphabet := renderBraced (alphabet.symbols.map render)

theorem mem_labels (alphabet : Alphabet α) (label : Label α) :
    label ∈ alphabet.labels ↔ ∀ value, label = .symbol value → value ∈ alphabet.symbols := by
  cases label <;> simp [labels]

theorem length_labels (alphabet : Alphabet α) : alphabet.labels.length = alphabet.size + 1 := by
  rw [labels, List.length_append, List.length_map, List.length_singleton, size]

section Membership

variable [DecidableEq α]

def contains (alphabet : Alphabet α) (value : α) : Bool :=
  alphabet.symbols.contains value

/-- The position of a symbol in the declared order, if it belongs to the alphabet. -/
def position? (alphabet : Alphabet α) (value : α) : Option Nat :=
  alphabet.symbols.idxOf? value

/--
The alphabet with the given symbols in the given order.  If a symbol is given
twice, the result is the symbol whose second occurrence comes first.
-/
def ofList (symbols : List α) : Except α (Alphabet α) :=
  match found : repetitions symbols with
  | [] => .ok ⟨symbols, (repetitions_eq_nil_iff symbols).1 found⟩
  | repeated :: _ => .error repeated

theorem position?_eq_none_iff (alphabet : Alphabet α) (value : α) :
    alphabet.position? value = none ↔ value ∉ alphabet.symbols := by
  simp [position?, List.idxOf?_eq_none_iff]

/-- The position of a symbol is where the symbol stands. -/
theorem symbols_getElem?_position? (alphabet : Alphabet α) {value : α} {position : Nat}
    (located : alphabet.position? value = some position) :
    alphabet.symbols[position]? = some value := by
  obtain ⟨bound, equality, _⟩ := List.idxOf?_eq_some_iff.1 located
  rw [List.getElem?_eq_getElem bound, equality]

theorem exists_position? (alphabet : Alphabet α) {value : α}
    (member : value ∈ alphabet.symbols) : ∃ position, alphabet.position? value = some position := by
  cases located : alphabet.position? value with
  | none => exact absurd member ((alphabet.position?_eq_none_iff value).1 located)
  | some position => exact ⟨position, rfl⟩

end Membership

def lowercase : List Char :=
  ['a', 'b', 'c', 'd', 'e', 'f', 'g', 'h', 'i', 'j', 'k', 'l', 'm',
    'n', 'o', 'p', 'q', 'r', 's', 't', 'u', 'v', 'w', 'x', 'y', 'z']

theorem lowercase_nodup : lowercase.Nodup := by
  decide

/-- The alphabet of the first `size` lowercase letters. -/
def ofSize (size : Nat) : Except Refusal (Alphabet Char) :=
  if size ≤ lowercase.length then
    .ok ⟨lowercase.take size, lowercase_nodup.sublist (List.take_sublist size lowercase)⟩
  else
    .error .alphabetTooLarge

end Alphabet

end WordAutomata
