import WordAutomata.Render

/-!
# Quoted texts

A text is quoted by marks around it.  A quotation mark or a backslash inside of
it gets a backslash in front, and a control character is written by a letter or
by its number.
-/

namespace WordAutomata

/--
A character inside of a quoted text.  Beyond the first 128 characters all are
written as they are, which is enough for symbols of ready-made machines.
-/
def quotedCharacter (character : Char) : String :=
  match character with
  | '\x00' => "\\0"
  | '\t' => "\\t"
  | '\n' => "\\n"
  | '\r' => "\\r"
  | '\x22' => "\\\x22"
  | '\x5c' => "\\\\"
  | _ =>
      if character.toNat < 32 ∨ character.toNat = 127 then
        "\\u" ++ braced (String.ofList (Nat.toDigits 16 character.toNat))
      else
        character.toString

def quoted (text : String) : String :=
  "\x22" ++ String.join (text.toList.map quotedCharacter) ++ "\x22"

/-- Nothing is changed between the marks if no character has to be written in another way. -/
theorem quoted_of_plain {text : String}
    (plain : ∀ character ∈ text.toList, quotedCharacter character = character.toString) :
    quoted text = "\x22" ++ text ++ "\x22" := by
  have same : text.toList.map quotedCharacter = text.toList.map Char.toString :=
    List.map_congr_left plain
  have joined : String.join (text.toList.map Char.toString) = text := by
    rw [← String.toList_inj, String.toList_join, List.flatMap_map]
    simp
  rw [quoted, same, joined]

end WordAutomata
