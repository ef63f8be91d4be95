import Switchboard.Text.CodePoints

/-!
# Blanks and lower case

White space by the Unicode property `White_Space`, and lower case as far as a comparison with an
ASCII word can tell.
-/

namespace Switchboard

def blankRanges : CodePoints :=
  [(0x09, 0x0D), (0x20, 0x20), (0x85, 0x85), (0xA0, 0xA0), (0x1680, 0x1680), (0x2000, 0x200A),
    (0x2028, 0x2029), (0x202F, 0x202F), (0x205F, 0x205F), (0x3000, 0x3000)]

def isBlank (c : Char) : Bool := blankRanges.has c

theorem isBlank_of_isWhitespace {c : Char} (h : c.isWhitespace = true) : isBlank c = true := by
  simp [Char.isWhitespace] at h
  rcases h with ((h | h) | h) | h <;> subst h <;> decide

def trimBlanks (cs : List Char) : List Char :=
  ((cs.dropWhile isBlank).reverse.dropWhile isBlank).reverse

/-- Lower case of the characters whose lower case is an ASCII letter: the capitals and the Kelvin
sign. Whether a text in lower case equals a given ASCII word depends on no other character, since
none turns into ASCII letters alone. -/
def lowerChar (c : Char) : Char := if c = '\u212A' then 'k' else c.toLower

def lower (s : String) : String := s.map lowerChar

end Switchboard
