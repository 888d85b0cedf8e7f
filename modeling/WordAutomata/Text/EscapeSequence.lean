/-!
# Escape sequences

A terminal does not display everything that it is sent.  The escape character
begins a sequence of characters which tells the terminal what to do: a control
sequence sets a colour, a command string names a link or a title.  A terminal
reads the bytes of a text and not its characters, and some bytes matter to it
inside of a longer character.  This file follows the states of a terminal that
reads a text, and cuts the text into its visible runs and the sequences between
them.
-/

namespace WordAutomata.Text

/-- How far a sequence with parameters has been read. -/
inductive ParameterPlace where
  | start
  | parameters
  /-- Intermediate bytes have been read, after which no parameter may follow. -/
  | intermediates
  deriving DecidableEq

/-- What a terminal is reading. -/
inductive TerminalState where
  | display
  | escape
  /-- A short sequence, of which intermediate bytes have been read. -/
  | escapeIntermediate
  /-- A control sequence with so many separators between parameters and so many marks. -/
  | control (place : ParameterPlace) (separators marks : Nat)
  | controlMalformed
  | command
  /-- The parameters of a string for a device. -/
  | device (place : ParameterPlace)
  /-- A string that is dropped, up to the string terminator. -/
  | dropped
  deriving DecidableEq

/-- What a terminal does with a byte or a character. -/
structure Reading where
  state : TerminalState
  /-- Whether it is displayed or obeyed at once. -/
  shows : Bool
  ends : Bool
  deriving DecidableEq

namespace Reading

/-- The byte is displayed or obeyed at once. -/
def display (state : TerminalState) : Reading :=
  ⟨state, true, false⟩

/-- The byte belongs to a sequence, or to none at all. -/
def swallow (state : TerminalState) : Reading :=
  ⟨state, false, false⟩

/-- The byte is the last one of a sequence. -/
def finish : Reading :=
  ⟨.display, false, true⟩

end Reading

/-- The byte that ends strings and would take part in a longer character elsewhere. -/
def stringTerminator : Nat :=
  0x9C

/--
Whether a control sequence is carried out.  A terminal has room for thirty-two
parameters and for a single mark, and ignores a sequence with more of them.
-/
def isCarriedOut (separators marks : Nat) : Bool :=
  separators < 32 && marks ≤ 1

namespace TerminalState

def readEscape (byte : Nat) : Reading :=
  if byte < 0x20 then .display .escape
  else if byte ≤ 0x2F then .swallow .escapeIntermediate
  else if byte = 0x5B then .swallow (.control .start 0 0)
  else if byte = 0x5D then .swallow .command
  else if byte = 0x50 then .swallow (.device .start)
  else if byte ∈ [0x58, 0x5E, 0x5F] then .swallow .dropped
  else if byte ≤ 0x7E then .finish
  else .swallow .escape

/-- Reads a byte of a short sequence after its first intermediate byte. -/
def readEscapeIntermediate (byte : Nat) : Reading :=
  if byte < 0x20 then .display .escapeIntermediate
  else if 0x30 ≤ byte && byte ≤ 0x7E then .finish
  else .swallow .escapeIntermediate

/--
Reads a byte of a control sequence.  Signs from `<` to `?` are marks in front
of the parameters and make the sequence malformed behind them; intermediate
bytes count as marks as well.
-/
def readControl (place : ParameterPlace) (separators marks byte : Nat) : Reading :=
  if byte < 0x20 then .display (.control place separators marks)
  else if byte ≤ 0x2F then .swallow (.control .intermediates separators (marks + 1))
  else if byte ≤ 0x3F then
    match place with
    | .intermediates => .swallow .controlMalformed
    | .start | .parameters =>
        if byte ≤ 0x39 then .swallow (.control .parameters separators marks)
        else if byte ≤ 0x3B then .swallow (.control .parameters (separators + 1) marks)
        else if place = .start then .swallow (.control .parameters separators (marks + 1))
        else .swallow .controlMalformed
  else if byte ≤ 0x7E then
    if isCarriedOut separators marks then .finish else .swallow .display
  else .swallow (.control place separators marks)

def readControlMalformed (byte : Nat) : Reading :=
  if byte < 0x20 then .display .controlMalformed
  else if 0x40 ≤ byte && byte ≤ 0x7E then .swallow .display
  else .swallow .controlMalformed

/-- Reads a byte of the parameters of a string for a device. -/
def readDevice (place : ParameterPlace) (byte : Nat) : Reading :=
  if byte < 0x20 then .swallow (.device place)
  else if byte ≤ 0x2F then .swallow (.device .intermediates)
  else if byte ≤ 0x3F then
    match place with
    | .start => .swallow (.device .parameters)
    | .parameters => .swallow (if byte ≤ 0x3B then .device .parameters else .dropped)
    | .intermediates => .swallow .dropped
  else if byte ≤ 0x7E then .swallow .dropped
  else .swallow (.device place)

/--
Reads a byte.  The bytes cancel and substitute abandon every sequence, and an
escape character begins a new one wherever it stands.  Both end a command
string.  What remains of a character whose first bytes were not displayed is
not displayed either.
-/
def readByte (state : TerminalState) (byte : Nat) : Reading :=
  if byte = 0x18 ∨ byte = 0x1A then ⟨.display, true, state = .command⟩
  else if byte = 0x1B then ⟨.escape, false, state = .command⟩
  else
    match state with
    | .display => if byte < 0x80 then .display .display else .swallow .display
    | .escape => readEscape byte
    | .escapeIntermediate => readEscapeIntermediate byte
    | .control place separators marks => readControl place separators marks byte
    | .controlMalformed => readControlMalformed byte
    | .command => if byte = 0x07 then .finish else .swallow .command
    | .device place => readDevice place byte
    | .dropped => .swallow (if byte = stringTerminator then .display else .dropped)

def bytesOf (character : Char) : List Nat :=
  (String.utf8EncodeChar character).map UInt8.toNat

/--
Reads a character.  Text is displayed character by character.  Elsewhere the
bytes are read one by one; those of a character with several bytes are never
displayed.
-/
def read (state : TerminalState) (character : Char) : Reading :=
  if character.toNat < 0x80 then state.readByte character.toNat
  else if state = .display then .display .display
  else
    .swallow ((bytesOf character).foldl (fun current byte => (current.readByte byte).state) state)

end TerminalState

/--
A part of a text as a terminal reads it.  The text of a part is missing if the
part begins or ends inside of a character.
-/
inductive Segment where
  | run (text : Option (List Char))
  /-- A control sequence that sets how the text behind it looks. -/
  | rendition (text : Option (List Char))
  /-- Any other sequence that tells the terminal what to do. -/
  | instruction
  deriving DecidableEq

/-! ## Pieces by bytes -/

/-- Cuts a text behind a number of bytes; the inside of a character cannot be cut. -/
def cut? : Nat → List Char → Option (List Char × List Char)
  | 0, text => some ([], text)
  | _ + 1, [] => none
  | bytes + 1, character :: rest =>
      if character.utf8Size ≤ bytes + 1 then
        (cut? (bytes + 1 - character.utf8Size) rest).map fun (front, back) =>
          (character :: front, back)
      else
        none

/-! ## Reading -/

/-- What was read since the last sequence ended. -/
structure Pending where
  /-- All characters, the latest first. -/
  latest : List Char
  /-- The number of bytes that were displayed or obeyed at once. -/
  shown : Nat
  /-- The number of escape characters that stand right behind another one. -/
  repeated : Nat
  /-- Whether the last character that was read, in a finished sequence or not, was an escape. -/
  isBehindEscape : Bool
  deriving DecidableEq

namespace Pending

def none : Pending :=
  ⟨[], 0, 0, false⟩

/-- Nothing was read since a sequence ended at the given character. -/
def behind (character : Char) : Pending :=
  { none with isBehindEscape := character = '\x1b' }

def add (pending : Pending) (character : Char) (shows : Bool) : Pending where
  latest := character :: pending.latest
  shown := if shows then pending.shown + character.utf8Size else pending.shown
  repeated :=
    if character = '\x1b' ∧ pending.isBehindEscape then pending.repeated + 1
    else pending.repeated
  isBehindEscape := character = '\x1b'

/-- What is left of the characters: each repeated escape character moves the beginning by a byte. -/
def text? (pending : Pending) : Option (List Char) :=
  (cut? pending.repeated pending.latest.reverse).map Prod.snd

/-- The run at the end of a text: all that is left, provided that something was shown. -/
def lastRun (pending : Pending) : List Segment :=
  if pending.shown = 0 then [] else [.run pending.text?]

/--
The run in front of a sequence and the sequence.  The run has as many bytes as
were shown, and the sequence begins behind it, even if sequences that were given
up stand in between.
-/
def runAndSequence (pending : Pending) (setsRendition : Bool) : List Segment :=
  let parts := pending.text?.bind (cut? pending.shown)
  (if pending.shown = 0 then [] else [.run (parts.map Prod.fst)]) ++
    [if setsRendition then .rendition (parts.map Prod.snd) else .instruction]

end Pending

/-- Whether a sequence that ends at the given character sets how text looks. -/
def TerminalState.setsRendition (state : TerminalState) (character : Char) : Bool :=
  match state with
  | .control _ _ marks => marks = 0 && character = 'm'
  | _ => false

/-- The segments of the text that a terminal reads from the given state on. -/
def segmentsFrom : TerminalState → Pending → List Char → List Segment
  | _, pending, [] => pending.lastRun
  | state, pending, character :: rest =>
      let reading := state.read character
      let next := pending.add character reading.shows
      if reading.ends then
        next.runAndSequence (state.setsRendition character) ++
          segmentsFrom reading.state (.behind character) rest
      else
        segmentsFrom reading.state next rest

def segments (text : List Char) : List Segment :=
  segmentsFrom .display .none text

def visibleRuns (text : List Char) : List (Option (List Char)) :=
  (segments text).filterMap fun segment =>
    match segment with
    | .run run => some run
    | _ => none

/-- The sequences of a text that set how the text behind them looks. -/
def writtenRenditions (text : List Char) : List (Option (List Char)) :=
  (segments text).filterMap fun segment =>
    match segment with
    | .rendition sequence => some sequence
    | _ => none

end WordAutomata.Text
