import WordAutomata.Proofs.Run.Engine
import WordAutomata.Proofs.Search.Order

/-!
# Least words

The symbols of an alphabet are ordered as they are declared, and its words are
ordered by length first and then symbol by symbol.  If a function places words,
then a least word of a place is one that no other word of the place is before.
Which words are least depends only on which words share a place, and not on
what the places are.
-/

namespace WordAutomata

variable {α : Type} [DecidableEq α]

/-! ## The declared order of symbols -/

/-- The first symbol is declared before the second one. -/
def Alphabet.Before (alphabet : Alphabet α) (first second : α) : Prop :=
  alphabet.symbols.idxOf first < alphabet.symbols.idxOf second

instance (alphabet : Alphabet α) (first second : α) : Decidable (alphabet.Before first second) :=
  inferInstanceAs (Decidable (alphabet.symbols.idxOf first < alphabet.symbols.idxOf second))

instance (alphabet : Alphabet α) : IsTrans α alphabet.Before :=
  ⟨fun _ _ _ left right => Nat.lt_trans left right⟩

instance (alphabet : Alphabet α) : Std.Asymm alphabet.Before :=
  ⟨fun _ _ left right => Nat.lt_asymm left right⟩

theorem Alphabet.pairwise_before (alphabet : Alphabet α) :
    alphabet.symbols.Pairwise alphabet.Before := by
  rw [List.pairwise_iff_getElem]
  intro first second firstBound secondBound earlier
  show alphabet.symbols.idxOf _ < alphabet.symbols.idxOf _
  rw [alphabet.nodup.idxOf_getElem, alphabet.nodup.idxOf_getElem]
  exact earlier

/-! ## Words that share a place -/

namespace Alphabet

variable {β γ : Type}

/-- The two functions put the same words over the alphabet into one place. -/
def SameFibres (alphabet : Alphabet α) (place : List α → β) (place' : List α → γ) : Prop :=
  ∀ first second, alphabet.IsWord first → alphabet.IsWord second →
    (place first = place second ↔ place' first = place' second)

/-- The word is over the alphabet, and no other such word of its place is before it. -/
def IsLeastWord (alphabet : Alphabet α) (place : List α → β) (word : List α) : Prop :=
  alphabet.IsWord word ∧ ∀ other, alphabet.IsWord other → place other = place word →
    NotAfter alphabet.Before word other

theorem SameFibres.isLeastWord_iff {alphabet : Alphabet α} {place : List α → β}
    {place' : List α → γ} (same : alphabet.SameFibres place place') (word : List α) :
    alphabet.IsLeastWord place word ↔ alphabet.IsLeastWord place' word := by
  constructor
  · rintro ⟨isWord, least⟩
    refine ⟨isWord, ?_⟩
    intro other isWord' shared
    exact least other isWord' ((same other word isWord' isWord).2 shared)
  · rintro ⟨isWord, least⟩
    refine ⟨isWord, ?_⟩
    intro other isWord' shared
    exact least other isWord' ((same other word isWord' isWord).1 shared)

end Alphabet

omit [DecidableEq α] in
/-- A list of words in strict order is determined by its members. -/
theorem eq_of_pairwise_shortlex {before : α → α → Prop} [Std.Asymm before]
    {first second : List (List α)} (left : first.Pairwise (List.Shortlex before))
    (right : second.Pairwise (List.Shortlex before))
    (same : ∀ word, word ∈ first ↔ word ∈ second) :
    first = second := by
  have irreflexive : ∀ {earlier later : List α}, List.Shortlex before earlier later →
      earlier ≠ later := by
    rintro word _ ordered rfl
    exact Std.Asymm.asymm word word ordered ordered
  apply List.Perm.eq_of_pairwise _ left right
  · exact (List.perm_ext_iff_of_nodup (left.imp irreflexive) (right.imp irreflexive)).2 same
  · intro earlier later _ _ ordered reversed
    exact absurd reversed (Std.Asymm.asymm earlier later ordered)

end WordAutomata
