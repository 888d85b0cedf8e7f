/-!
# Readable forms

Symbols, words, labels and sets of states all have one readable form, which
tables and messages use.  A symbol is written plainly, a word is written
between quotation marks without any separator, and a collection is written
between braces with its members separated by a comma and a space.
-/

namespace WordAutomata

class Render (α : Type) where
  render : α → String

export Render (render)

instance : Render Char where
  render := Char.toString

instance : Render Nat where
  render number := toString number

instance : Render UInt8 where
  render byte := toString byte.toNat

instance : Render String where
  render text := text

/--
A word is written between quotation marks, its symbols one after the other.
A word of words therefore has marks around each of its members.
-/
instance {α : Type} [Render α] : Render (List α) where
  render word := "\"" ++ String.join (word.map render) ++ "\""

def openingBrace : Char :=
  '\x7b'

def closingBrace : Char :=
  '\x7d'

/-- A text between braces. -/
def braced (text : String) : String :=
  openingBrace.toString ++ text ++ closingBrace.toString

/-- Members between braces, separated by a comma and a space. -/
def renderBraced (members : List String) : String :=
  braced (", ".intercalate members)

end WordAutomata
