import WordAutomata.Text.EscapeSequence
import WordAutomata.Text.RunWidth

/-!
# Display width

How many columns of a terminal a line of text takes: the columns of its visible
runs together.  The escape sequences between the runs take none, and no
character combines with another one across a sequence.  A line has no width if
one of its runs begins or ends inside of a character.
-/

namespace WordAutomata.Text

/-- The number of columns that a line of text takes. -/
def displayWidth? (line : String) : Option Nat :=
  (visibleRuns line.toList).foldlM
    (fun width visible => visible.map fun run => width + runWidth run) 0

end WordAutomata.Text
