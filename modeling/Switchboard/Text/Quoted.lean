import Switchboard.Text.Extending
import Switchboard.Text.Printable

/-!
# Quoted texts

A text in double quotes for a message: every character is shown on its own, so what would not be
seen, or would be drawn with the character before it, is written by its number.
-/

namespace Switchboard

/-- A character by its number. -/
def numbered (c : Char) : String := "\\u\x7b" ++ .ofList (Nat.toDigits 16 c.toNat) ++ "\x7d"

def quotedChar (c : Char) : String :=
  match c with
  | '"' => "\\\""
  | '\\' => "\\\\"
  | '\n' => "\\n"
  | '\r' => "\\r"
  | '\t' => "\\t"
  | '\x00' => "\\0"
  | _ => if isExtending c || !isPrintable c then numbered c else .singleton c

def quotedText (s : String) : String := "\"" ++ .join (s.toList.map quotedChar) ++ "\""

end Switchboard
