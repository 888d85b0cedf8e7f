import WordAutomata.Random.Source

/-!
# Pseudo-random numbers

A generator is a word of 64 bits.  Drawing adds an odd constant to the word and
mixes the result by a full multiplication.  As the constant is odd, the
generator goes through all words before it repeats itself; a draw that is
repeated until it is acceptable therefore ends within one period, if it ends at
all.
-/

namespace WordAutomata.Random

structure Generator where
  /-- The word that the next draw starts from. -/
  word : UInt64
  deriving DecidableEq

/-- The number of different words. -/
def wordCount : Nat :=
  18446744073709551616

namespace Generator

/-- Draws a word; all words are about equally likely. -/
def next (generator : Generator) : Nat × Generator :=
  let word := generator.word + 0x2d358dccaa6c78a5
  let product := word.toNat * (word ^^^ 0x8bb84b93962eacc9).toNat
  ((product % wordCount) ^^^ (product / wordCount), ⟨word⟩)

/-- Draws words until one is acceptable, at most `attempts` times and once more. -/
def nextWhere (accept : Nat → Bool) : Nat → Generator → Nat × Generator
  | 0, generator => generator.next
  | attempts + 1, generator =>
      let (drawn, rest) := generator.next
      if accept drawn then (drawn, rest) else nextWhere accept attempts rest

def flip (generator : Generator) : Bool × Generator :=
  let (drawn, rest) := generator.next
  (drawn % 2 = 0, rest)

/--
Draws a number below a positive bound.  A word is scaled to the bound, and the
words that would make some numbers more likely than others are drawn again.
-/
def below (bound : Nat) (generator : Generator) : Nat × Generator :=
  let surplus := (wordCount - bound) % bound
  let (drawn, rest) :=
    nextWhere (fun word => surplus ≤ word * bound % wordCount) wordCount generator
  (drawn * bound / wordCount, rest)

/-- The double-precision number nearest to half of a word. -/
def halfWord (word : Nat) : Nat :=
  nearestSignificant (word / 2) 1

/--
Draws a number from zero up to but not including one: half of a word, rounded,
as a multiple of `2 ^ (-63)`.
-/
def unit (generator : Generator) : Double × Generator :=
  let (drawn, rest) :=
    nextWhere (fun word => 2 * halfWord word < wordCount) wordCount generator
  (.finite (halfWord drawn * Nat.pow 2 1011 : Nat), rest)

instance : Source Generator :=
  ⟨below, flip, unit⟩

/-- Draws one value for each member of a list, in order and from any source. -/
def each {σ α β : Type} (draw : α → σ → β × σ) : List α → σ → List β × σ
  | [], source => ([], source)
  | first :: rest, source =>
      let (value, afterFirst) := draw first source
      let (values, afterAll) := each draw rest afterFirst
      (value :: values, afterAll)

end Generator

end WordAutomata.Random
