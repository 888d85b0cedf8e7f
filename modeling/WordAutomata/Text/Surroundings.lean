/-!
# What follows a character

The width that a character adds to a run depends on what follows it: on the
beginning of a ligature or of an emoji sequence, and on a selector in between.
This file lists the cases that matter.
-/

namespace WordAutomata.Text

/--
The beginning of a ligature that follows a character.  A flag tells whether a
joiner stands before it.
-/
inductive LigatureTail where
  /-- An alef, which joins with a lam. -/
  | arabicAlef
  /-- A lamed, which joins with an alef across a joiner. -/
  | hebrewLamed (joined : Bool)
  /-- A letter that is written below another one after the sign coeng. -/
  | khmerLetter
  /-- A ya, which joins with a vowel sign and another ya across a joiner. -/
  | bugineseYa (joined : Bool)
  /-- A vowel sign, a joiner and a ya. -/
  | bugineseVowelBeforeYa
  /-- A consonant, which joins with another one across a joiner. -/
  | tifinaghConsonant (joined : Bool)
  /-- The consonant joiner and a consonant. -/
  | tifinaghJoiner
  | lisuSecondTone
  /-- The letter orkhon i, which joins with the letter orkhon oe across a joiner. -/
  | orkhonI (joined : Bool)
  deriving DecidableEq

namespace LigatureTail

/-- The tail with a joiner before it; a tail that needs no joiner stays as it is. -/
def join : LigatureTail → LigatureTail
  | .hebrewLamed _ => .hebrewLamed true
  | .bugineseYa _ => .bugineseYa true
  | .tifinaghConsonant _ => .tifinaghConsonant true
  | .orkhonI _ => .orkhonI true
  | tail => tail

end LigatureTail

/--
The beginning of a tag that follows a character, read from its end.  A tag names
a region: up to three letters or digits for a part of a country follow the two
letters or three digits of the country.
-/
inductive TagTail where
  /-- So many letters and the end of the tag. -/
  | letters (count : Nat)
  /-- So many digits, then letters and the end of the tag. -/
  | digits (count : Nat)
  deriving DecidableEq

inductive EmojiTail where
  | picture
  | skinTone
  | regional
  /-- At least two regional indicators. -/
  | regionals
  | joinedPicture
  | joinedKeycap
  | joinedRegional
  /-- An even number of regional indicators, a joiner and a picture. -/
  | joinedRegionalsEven
  /-- An odd number of regional indicators, at least three, a joiner and a picture. -/
  | joinedRegionalsOdd
  /-- A part of a tag, a joiner and a picture. -/
  | tag (tail : TagTail)
  deriving DecidableEq

/-- What follows a character, as far as it matters for the width. -/
inductive Tail where
  | plain
  | lineFeed
  | ligature (tail : LigatureTail)
  | emoji (tail : EmojiTail)
  deriving DecidableEq

namespace Tail

def isEmoji : Tail → Bool
  | .emoji _ => true
  | _ => false

end Tail

/-- A selector decides whether the character before it is displayed as text or as a picture. -/
inductive Selector where
  | text
  | picture
  deriving DecidableEq

/-- What follows a character: perhaps a selector, and the tail behind it. -/
structure Surroundings where
  selector : Option Selector
  tail : Tail
  deriving DecidableEq

namespace Surroundings

def ofTail (tail : Tail) : Surroundings :=
  ⟨none, tail⟩

def plain : Surroundings :=
  ofTail .plain

def ofLigature (tail : LigatureTail) : Surroundings :=
  ofTail (.ligature tail)

def ofEmoji (tail : EmojiTail) : Surroundings :=
  ofTail (.emoji tail)

/-- Only a ligature continues across a selector that does not apply. -/
def dropSelector (surroundings : Surroundings) : Surroundings :=
  match surroundings.tail with
  | .ligature tail => ofLigature tail
  | _ => plain

def selectPicture (surroundings : Surroundings) : Surroundings :=
  match surroundings.tail with
  | .ligature tail => ⟨some .picture, .ligature tail⟩
  | .emoji .joinedPicture => ⟨some .picture, .emoji .joinedPicture⟩
  | .emoji .joinedKeycap => ⟨some .picture, .emoji .joinedKeycap⟩
  | _ => ⟨some .picture, .plain⟩

def selectText (surroundings : Surroundings) : Surroundings :=
  match surroundings.tail with
  | .ligature tail => ⟨some .text, .ligature tail⟩
  | _ => ⟨some .text, .plain⟩

end Surroundings

end WordAutomata.Text
