import WordAutomata.Text.EscapeSequence

/-!
# Graphic rendition

A control sequence that ends in `m` sets how the text behind it looks: bold,
underlined, in a colour.  A rendition is the collection of the settings that
are in force.  A text that is cut into lines keeps its look if each line opens
the settings that are in force at its start, and closes those that are in force
at its end.
-/

namespace WordAutomata.Text

structure Setting where
  /-- The place of the setting in the order of opening; settings of one rank exclude each other. -/
  rank : Nat
  opening : List Nat
  closing : Nat
  deriving DecidableEq

namespace Setting

/-- The settings that are either on or off, with the parameters that open and close them. -/
def switches : List (Nat × Nat) :=
  [(1, 22), (2, 22), (3, 23), (4, 24), (5, 25), (6, 25), (7, 27), (8, 28), (9, 29), (20, 23),
    (21, 24), (26, 50), (51, 54), (52, 54), (53, 55), (60, 65), (61, 65), (62, 65), (63, 65),
    (64, 65), (73, 75), (74, 75)]

/-- All parameters that close settings, in the order of closing. -/
def closings : List Nat :=
  [10, 22, 23, 24, 25, 27, 28, 29, 39, 49, 50, 54, 55, 65, 59, 75]

def font (opening : List Nat) : Setting :=
  ⟨10, opening, 10⟩

def foreground (opening : List Nat) : Setting :=
  ⟨30, opening, 39⟩

def background (opening : List Nat) : Setting :=
  ⟨40, opening, 49⟩

/-- A colour of the lines below the text. -/
def underline (opening : List Nat) : Setting :=
  ⟨50, opening, 59⟩

/-- The setting that a single parameter opens. -/
def ofCode? (code : Nat) : Option Setting :=
  if 11 ≤ code ∧ code ≤ 19 then some (font [code])
  else if (30 ≤ code ∧ code ≤ 37) ∨ (90 ≤ code ∧ code ≤ 97) then some (foreground [code])
  else if (40 ≤ code ∧ code ≤ 47) ∨ (100 ≤ code ∧ code ≤ 107) then some (background [code])
  else (switches.lookup code).map fun closing => ⟨code, [code], closing⟩

def isFont (setting : Setting) : Bool :=
  setting.rank = 10

/-- Whether a parameter ends the setting; blackletter lasts until everything is reset. -/
def isEndedBy (setting : Setting) (code : Nat) : Bool :=
  setting.closing = code && setting.rank ≠ 20

end Setting

/-- What is in force at a place of a text. -/
structure Rendition where
  settings : List Setting
  /-- Whether everything has been reset at least once. -/
  isReset : Bool
  /-- Whether a parameter since the last reset was not understood. -/
  isDoubtful : Bool
  deriving DecidableEq

namespace Rendition

/-- The rendition at the start of a text. -/
def plain : Rendition :=
  ⟨[], false, false⟩

/-- Puts a setting at its place in a list, instead of the one with its rank. -/
def place (setting : Setting) : List Setting → List Setting
  | [] => [setting]
  | head :: tail =>
      if setting.rank < head.rank then setting :: head :: tail
      else if setting.rank = head.rank then setting :: tail
      else head :: place setting tail

/-- Puts a setting in force, instead of the one with its rank. -/
def set (rendition : Rendition) (setting : Setting) : Rendition :=
  { rendition with settings := place setting rendition.settings }

/-- Ends all settings that a parameter ends. -/
def close (rendition : Rendition) (code : Nat) : Rendition :=
  { rendition with settings := rendition.settings.filter fun setting => !setting.isEndedBy code }

def select (rendition : Rendition) (code : Nat) : Rendition :=
  if code = 0 then { plain with isReset := true }
  else if code ∈ Setting.closings then rendition.close code
  else
    match Setting.ofCode? code with
    | some setting => rendition.set setting
    | none => { rendition with isDoubtful := true }

/--
Whether there is anything to open or close.  A font alone is not worth it, and
a doubt matters only after everything has been reset.
-/
def isWorthWriting (rendition : Rendition) : Bool :=
  (rendition.isReset && rendition.isDoubtful) ||
    rendition.settings.any fun setting => !setting.isFont

end Rendition

/-! ## Parameters -/

/-- The number that decimal digits denote; there is none without digits or for other characters. -/
def decimal? (digits : List Char) : Option Nat :=
  if digits.isEmpty then
    none
  else
    digits.foldl
      (fun number digit =>
        if digit.isDigit then number.map fun value => 10 * value + (digit.toNat - '0'.toNat)
        else none)
      (some 0)

/-- The code that a parameter denotes; a code has no needless zero in front. -/
def code? (parameter : List Char) : Option Nat :=
  (decimal? parameter).filter fun code => (toString code).toList = parameter

/-- The part of a colour that a parameter denotes; what cannot be a part counts as zero. -/
def colourPart (parameter : List Char) : Nat :=
  ((decimal? parameter).filter fun part => part < 256).getD 0

/-- Where a colour goes whose description begins with the given parameter. -/
def colourPlace? (parameter : List Char) : Option (List Nat → Setting) :=
  match code? parameter with
  | some 38 => some fun colour => .foreground (38 :: colour)
  | some 48 => some fun colour => .background (48 :: colour)
  | some 58 => some fun colour => .underline (58 :: colour)
  | _ => none

/--
Reads the description of a colour: the number of the colour in a palette, or its
three parts.  A description that breaks off describes nothing, and neither does
one of another kind.  The second result is what follows the description.
-/
def readColour : List (List Char) → Option (List Nat) × List (List Char)
  | ['5'] :: index :: rest => (some [5, colourPart index], rest)
  | ['2'] :: red :: green :: blue :: rest =>
      (some [2, colourPart red, colourPart green, colourPart blue], rest)
  | ['2'] :: _ => (none, [])
  | _ :: rest => (none, rest)
  | [] => (none, [])

theorem length_readColour_le (parameters : List (List Char)) :
    (readColour parameters).2.length ≤ parameters.length := by
  unfold readColour
  split <;> simp <;> omega

namespace Rendition

/-- The rendition after a parameter that does not begin the description of a colour. -/
def selectParameter (rendition : Rendition) (parameter : List Char) : Rendition :=
  match code? parameter with
  | some code => rendition.select code
  | none => { rendition with isDoubtful := true }

def selectAll (rendition : Rendition) : List (List Char) → Rendition
  | [] => rendition
  | parameter :: rest =>
      match colourPlace? parameter with
      | none => (rendition.selectParameter parameter).selectAll rest
      | some place =>
          let next :=
            match (readColour rest).1 with
            | some colour => rendition.set (place colour)
            | none => rendition
          next.selectAll (readColour rest).2
termination_by parameters => parameters.length
decreasing_by
  · simp
  · have shorter := length_readColour_le rest
    simp
    omega

end Rendition

/-- The pieces of a text between separators. -/
def piecesBetween (separator : Char) : List Char → List (List Char)
  | [] => [[]]
  | head :: tail =>
      if head = separator then
        [] :: piecesBetween separator tail
      else
        match piecesBetween separator tail with
        | [] => [[head]]
        | piece :: pieces => (head :: piece) :: pieces

def renditionParameters (sequence : List Char) : List (List Char) :=
  match sequence with
  | '\x1b' :: '[' :: body => piecesBetween ';' body.dropLast
  | _ => []

/-- The rendition behind a sequence that sets it. -/
def Rendition.after (rendition : Rendition) (sequence : List Char) : Rendition :=
  rendition.selectAll (renditionParameters sequence)

/-- The rendition behind a line, unless a sequence of it begins or ends inside of a character. -/
def Rendition.afterLine? (rendition : Rendition) (line : String) : Option Rendition :=
  (writtenRenditions line.toList).foldlM
    (fun current written => written.map current.after) rendition

/-! ## Lines -/

def renditionSequence (parameters : List Nat) : String :=
  "\x1b[" ++ ";".intercalate (parameters.map fun parameter => toString parameter) ++ "m"

namespace Rendition

def opening (rendition : Rendition) : String :=
  if rendition.isWorthWriting then
    String.join (rendition.settings.map fun setting => renditionSequence setting.opening)
  else
    ""

/--
The sequences that end a rendition.  If there is a doubt, everything is reset
at the end, and at the start as well if that has been done before.
-/
def closing (rendition : Rendition) : String :=
  if rendition.isWorthWriting then
    let reset := renditionSequence [0]
    let codes := Setting.closings.filter fun code =>
      rendition.settings.any fun setting => setting.closing = code
    (if rendition.isDoubtful && rendition.isReset then reset else "") ++
      String.join (codes.map fun code => renditionSequence [code]) ++
      (if rendition.isDoubtful then reset else "")
  else
    ""

end Rendition

/--
Lines that look apart as they do together, when the given rendition is in force
before them.  An empty line is left empty.
-/
def renderedApart? : Rendition → List String → Option (List String)
  | _, [] => some []
  | rendition, line :: rest =>
      if line = "" then
        (renderedApart? rendition rest).map fun lines => "" :: lines
      else
        (rendition.afterLine? line).bind fun next =>
          (renderedApart? next rest).map fun lines =>
            (rendition.opening ++ line ++ next.closing) :: lines

end WordAutomata.Text
