import OpenFlow.Text.Blank
import OpenFlow.Text.Hexadecimal

set_option autoImplicit false

/-! # Quoted text

Text that a message shows as it was found stands between quotation marks. Quotation marks,
backslashes and characters that cannot be seen by themselves are escaped: the common ones by a
letter, the others by their code points. What is quoted is at most two octets long in UTF-8, so the
tables end with the last character of that size, U+07FF. -/

namespace OpenFlow.Text

/-- Code points of controls, formats, separators other than the space, and unassigned ones. -/
def unprintableRanges : List (Nat × Nat) :=
  [(0x0, 0x1f), (0x7f, 0xa0), (0xad, 0xad), (0x378, 0x379), (0x380, 0x383), (0x38b, 0x38b),
    (0x38d, 0x38d), (0x3a2, 0x3a2), (0x530, 0x530), (0x557, 0x558), (0x58b, 0x58c),
    (0x590, 0x590), (0x5c8, 0x5cf), (0x5eb, 0x5ee), (0x5f5, 0x605), (0x61c, 0x61c),
    (0x6dd, 0x6dd), (0x70e, 0x70f), (0x74b, 0x74c), (0x7b2, 0x7bf), (0x7fb, 0x7fc)]

/-- Code points of marks that combine with the character before them. -/
def combiningRanges : List (Nat × Nat) :=
  [(0x300, 0x36f), (0x483, 0x489), (0x591, 0x5bd), (0x5bf, 0x5bf), (0x5c1, 0x5c2),
    (0x5c4, 0x5c5), (0x5c7, 0x5c7), (0x610, 0x61a), (0x64b, 0x65f), (0x670, 0x670),
    (0x6d6, 0x6dc), (0x6df, 0x6e4), (0x6e7, 0x6e8), (0x6ea, 0x6ed), (0x711, 0x711),
    (0x730, 0x74a), (0x7a6, 0x7b0), (0x7eb, 0x7f3), (0x7fd, 0x7fd)]

/-- A character by its code point. -/
def escapeCode (c : Char) : String :=
  "\\u\x7b" ++ String.ofList (hexDigits c.toNat) ++ "\x7d"

/-- A character as it stands in quoted text. -/
def escapeQuoted : Char → String
  | '\x00' => "\\0"
  | '\t' => "\\t"
  | '\n' => "\\n"
  | '\r' => "\\r"
  | '"' => "\\\""
  | '\\' => "\\\\"
  | c =>
    if inRanges unprintableRanges c || inRanges combiningRanges c then escapeCode c
    else String.singleton c

/-- A text between quotation marks. -/
def quoted (cs : List Char) : String := "\"" ++ String.join (cs.map escapeQuoted) ++ "\""

end OpenFlow.Text
