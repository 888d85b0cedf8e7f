import WordAutomata.Text.CharacterSet.Emoji
import WordAutomata.Text.CharacterSet.Joining
import WordAutomata.Text.CharacterSet.Width
import WordAutomata.Text.Surroundings

/-!
# The width of a run of characters

How many columns of a terminal a run of characters takes.  A character alone
takes one column, two if it is wide, none if it only modifies its neighbours.
Some sequences are displayed as one: the letters of a ligature, an emoji with
its selector, skin tone or companions, a flag.  What a character adds to the
width therefore depends on what follows it, and the run is read from its end.
-/

namespace WordAutomata.Text

/-- The characters that a picture selector applies to. -/
def acceptsPictureSelector (character : Char) : Bool :=
  CharacterSet.textual.contains character ||
    CharacterSet.selectablePictorial.contains character

/--
The characters that a text selector makes narrow.  The two ideographs among the
pictures stay wide as text.
-/
def acceptsTextSelector (character : Char) : Bool :=
  CharacterSet.selectablePictorial.contains character &&
    !(character.toNat = 0x1F21A || character.toNat = 0x1F22F)

def characterWidth (character : Char) : Int :=
  if character.toNat ≤ 0xA0 then 1
  else if CharacterSet.zeroWidth.contains character then 0
  else if character = '\u17D8' then 3
  else if CharacterSet.wide.contains character then 2
  else 1

/-- The tail that begins with a character, whatever follows it. -/
def Tail.ofCharacter (character : Char) : Tail :=
  if character = '\u05DC' then .ligature (.hebrewLamed false)
  else if CharacterSet.arabicAlef.contains character then .ligature .arabicAlef
  else if CharacterSet.khmerSubscriptable.contains character then .ligature .khmerLetter
  else if character = '\u1A10' then .ligature (.bugineseYa false)
  else if CharacterSet.tifinaghConsonant.contains character then
    .ligature (.tifinaghConsonant false)
  else if CharacterSet.lisuSecondTone.contains character then .ligature .lisuSecondTone
  else if character.toNat = 0x10C03 then .ligature (.orkhonI false)
  else if CharacterSet.regionalIndicator.contains character then .emoji .regional
  else if CharacterSet.skinTone.contains character then .emoji .skinTone
  else if CharacterSet.pictorial.contains character then .emoji .picture
  else .plain

/-- What a character adds to the width if it does not combine with what follows. -/
def standingAlone (character : Char) : Int × Surroundings :=
  let selector :=
    if character = '\uFE0E' then some Selector.text
    else if character = '\uFE0F' then some Selector.picture
    else none
  (characterWidth character, ⟨selector, Tail.ofCharacter character⟩)

namespace LigatureTail

/-- What a character adds to the width if it is a part of the ligature that follows. -/
def combine? (character : Char) : LigatureTail → Option (Int × Surroundings)
  | .arabicAlef =>
      if CharacterSet.arabicLam.contains character then some (0, .plain)
      else if CharacterSet.zeroWidth.contains character &&
          !CharacterSet.breaksArabicJoining.contains character then
        some (0, .ofLigature .arabicAlef)
      else none
  | .hebrewLamed true => if character = '\u05D0' then some (0, .plain) else none
  | .khmerLetter => if character = '\u17D2' then some (-1, .plain) else none
  | .bugineseYa true =>
      if character = '\u1A17' then some (0, .ofLigature .bugineseVowelBeforeYa) else none
  | .bugineseVowelBeforeYa => if character = '\u1A15' then some (0, .plain) else none
  | .tifinaghConsonant joined =>
      if character = '\u2D7F' then some (1, .ofLigature .tifinaghJoiner)
      else if joined && CharacterSet.tifinaghConsonant.contains character then some (0, .plain)
      else none
  | .tifinaghJoiner =>
      if CharacterSet.tifinaghConsonant.contains character then some (-1, .plain) else none
  | .lisuSecondTone =>
      if CharacterSet.lisuFirstTone.contains character then some (0, .plain) else none
  | .orkhonI true => if character.toNat = 0x10C32 then some (0, .plain) else none
  | _ => none

/-- Whether joiners and selectors may stand before the rest of the ligature. -/
def isTransparent : LigatureTail → Bool
  | .arabicAlef => false
  | _ => true

/-- What a character before a ligature adds to the width, if it has to do with the ligature. -/
def before? (character : Char) (tail : LigatureTail) : Option (Int × Surroundings) :=
  if tail.isTransparent && character = '\u200D' then some (0, .ofLigature tail.join)
  else if tail.isTransparent && CharacterSet.ligatureTransparent.contains character then
    some (0, .ofLigature tail)
  else tail.combine? character

end LigatureTail

namespace TagTail

/-- The tag with one more character before it, if the tag allows it. -/
def extend? (character : Char) : TagTail → Option TagTail
  | .letters count =>
      if CharacterSet.tagLetter.contains character && count < 6 then some (.letters (count + 1))
      else if CharacterSet.tagDigit.contains character && count < 5 then some (.digits 1)
      else none
  | .digits count =>
      if CharacterSet.tagDigit.contains character && count < 3 then some (.digits (count + 1))
      else none

def isComplete : TagTail → Bool
  | .letters count => 3 ≤ count
  | .digits count => count = 3

end TagTail

namespace EmojiTail

/-- Whether a joiner connects what follows with the picture before it. -/
def isJoinable : EmojiTail → Bool
  | .picture | .skinTone | .regionals | .joinedRegionalsEven | .joinedRegionalsOdd => true
  | _ => false

/-- What a character before a joiner and a picture adds to the width. -/
def beforeJoiner? (character : Char) : Option (Int × Surroundings) :=
  if character = '\u20E3' then some (0, .ofEmoji .joinedKeycap)
  else if CharacterSet.regionalIndicator.contains character then
    some (1, .ofEmoji .joinedRegional)
  else if CharacterSet.skinTone.contains character then some (0, .ofEmoji .skinTone)
  else if character.toNat = 0xE007F then some (0, .ofEmoji (.tag (.letters 0)))
  else if CharacterSet.pictorial.contains character then some (0, .ofEmoji .picture)
  else none

/-- What a character adds to the width if it is a part of the emoji sequence that follows. -/
def before? (character : Char) (tail : EmojiTail) : Option (Int × Surroundings) :=
  if tail.isJoinable && character = '\u200D' then some (0, .ofEmoji .joinedPicture)
  else
    let isRegional := CharacterSet.regionalIndicator.contains character
    match tail with
    | .skinTone =>
        if CharacterSet.modifierBase.contains character then some (0, .ofEmoji .picture) else none
    | .regional | .regionals => if isRegional then some (1, .ofEmoji .regionals) else none
    | .joinedPicture => beforeJoiner? character
    | .joinedRegional | .joinedRegionalsOdd =>
        if isRegional then some (-1, .ofEmoji .joinedRegionalsEven) else none
    | .joinedRegionalsEven => if isRegional then some (3, .ofEmoji .joinedRegionalsOdd) else none
    | .tag name =>
        if name.isComplete && character.toNat = 0x1F3F4 then some (0, .ofEmoji .picture)
        else (name.extend? character).map fun longer => (0, .ofEmoji (.tag longer))
    | .picture | .joinedKeycap => none

end EmojiTail

/-- What a character adds to the width if it combines with a tail that no selector precedes. -/
def Tail.before? (character : Char) : Tail → Option (Int × Surroundings)
  | .ligature tail => tail.before? character
  | .emoji tail => tail.before? character
  | .plain | .lineFeed => none

/-- What a character that is no selector adds to the width before a tail without selector. -/
def beforeTail (character : Char) (tail : Tail) : Int × Surroundings :=
  (tail.before? character).getD (standingAlone character)

/-- What a character adds to the width if no picture selector follows it or applies to it. -/
def beforeSurroundings (character : Char) (surroundings : Surroundings) : Int × Surroundings :=
  if character.toNat ≤ 0xA0 then
    if character = '\r' ∧ surroundings.tail = .lineFeed then (0, .plain)
    else (1, .ofTail (if character = '\n' then .lineFeed else .plain))
  else if surroundings = .plain then standingAlone character
  else if character = '\uFE0F' then (0, surroundings.selectPicture)
  else if character = '\uFE0E' then (0, surroundings.selectText)
  else if surroundings.selector = some .text then
    if acceptsTextSelector character then (1, .plain)
    else beforeTail character surroundings.dropSelector.tail
  else beforeTail character surroundings.tail

/--
What a character adds to the width in its surroundings, and the surroundings of
the character before it.
-/
def beforeAll (character : Char) (surroundings : Surroundings) : Int × Surroundings :=
  if surroundings.selector = some .picture then
    if acceptsPictureSelector character then
      (if surroundings.tail.isEmoji then 0 else 2, .ofEmoji .picture)
    else beforeSurroundings character surroundings.dropSelector
  else beforeSurroundings character surroundings

/-- The number of columns that a run of characters takes. -/
def runWidth (run : List Char) : Nat :=
  (run.foldr
    (fun character (width, surroundings) =>
      let (added, before) := beforeAll character surroundings
      (width + added, before))
    ((0 : Int), Surroundings.plain)).1.toNat

end WordAutomata.Text
