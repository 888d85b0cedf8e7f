import WordAutomata.Text.DisplayWidth
import WordAutomata.Text.Rendition

/-!
# Boxed tables

A table is drawn with lines around its cells and rounded corners.  The first
row is the header.  Texts are aligned to the left with one blank on each side,
a column is as wide as its widest text, and a row is as high as its highest
text.  If there is no row below the header, the box stays open at the bottom.

The texts are laid out first: every cell is cut into lines, and every line is
measured.  A table with a line that cannot be measured is not drawn.
-/

namespace WordAutomata.Text

/-! ## Layout -/

/-- A line of text with the number of columns that it takes. -/
structure Line where
  text : String
  width : Nat
  deriving DecidableEq

def Line.ofText? (text : String) : Option Line :=
  (displayWidth? text).map fun width => ⟨text, width⟩

/-- The lines of a text; if there are several, each has its own opening and closing of colours. -/
def textLines? (text : String) : Option (List String) :=
  match text.splitOn "\n" with
  | [line] => some [line]
  | lines => renderedApart? .plain lines

/-- A cell of a table: its lines from top to bottom. -/
structure Cell where
  lines : List Line
  deriving DecidableEq

namespace Cell

def ofText? (text : String) : Option Cell :=
  (textLines? text).bind fun texts => (texts.mapM Line.ofText?).map fun lines => ⟨lines⟩

def width (cell : Cell) : Nat :=
  (cell.lines.map Line.width).foldl max 0

def height (cell : Cell) : Nat :=
  cell.lines.length

/-- The line at a place of a cell; below the last line there is an empty one. -/
def line (cell : Cell) (index : Nat) : Line :=
  cell.lines[index]?.getD ⟨"", 0⟩

end Cell

def rowHeight (row : List Cell) : Nat :=
  (row.map Cell.height).foldl max 0

def columnWidths (rows : List (List Cell)) : List Nat :=
  let columns := (rows.map List.length).foldl max 0
  (List.range columns).map fun column =>
    (rows.map fun row => (row[column]?.map Cell.width).getD 0).foldl max 0

/-! ## Drawing -/

def repeated (text : String) (times : Nat) : String :=
  String.join (List.replicate times text)

/-- A horizontal line of the box with the given left end, crossings and right end. -/
def rule (left crossing right : String) (widths : List Nat) : String :=
  left ++ crossing.intercalate (widths.map fun width => repeated "─" (width + 2)) ++ right

/-- A line filled up with blanks to the given width. -/
def Line.padded (line : Line) (width : Nat) : String :=
  line.text ++ repeated " " (width - line.width)

/-- One line of text of a row, with its separators. -/
def rowLine (widths : List Nat) (row : List Cell) (index : Nat) : String :=
  let texts := widths.zipIdx.map fun (width, column) =>
    " " ++ ((row[column]?.getD ⟨[]⟩).line index).padded width ++ " "
  "│" ++ "│".intercalate texts ++ "│"

def rowLines (widths : List Nat) (row : List Cell) : List String :=
  (List.range (rowHeight row)).map (rowLine widths row)

/-- The drawing of a table whose first row is the header; a table without rows is empty. -/
def drawn : List (List Cell) → String
  | [] => ""
  | header :: rows =>
      let widths := columnWidths (header :: rows)
      let bottom := if rows.isEmpty then [] else [rule "╰" "┴" "╯" widths]
      "\n".intercalate
        ([rule "╭" "┬" "╮" widths] ++ rowLines widths header ++ [rule "├" "┼" "┤" widths] ++
          rows.flatMap (rowLines widths) ++ bottom)

/-- The drawing of a table of texts, provided that all of them can be laid out. -/
def boxedTable? (rows : List (List String)) : Option String :=
  (rows.mapM (List.mapM Cell.ofText?)).map drawn

end WordAutomata.Text
