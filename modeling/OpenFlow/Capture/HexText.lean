import OpenFlow.Octets.BigEndian
import OpenFlow.Text.Quoted

set_option autoImplicit false

/-! # Captures as hexadecimal text

A capture may be kept as text: words of hexadecimal digits, with any blanks between them. A word may
begin with `0x`, once or more often. What is left of the words is put together and read in pairs,
which may span words; of a pair, the first character may be a plus sign.

Pairs are cut by octets of UTF-8. The cut either falls on the bounds of characters, or the text is
refused. -/

namespace OpenFlow

/-- Why a text is no capture. -/
inductive HexError where
  /-- The digits take up an odd number of octets. -/
  | unpaired
  /-- A pair ends inside a character. -/
  | splitCharacter
  /-- A pair that is not two digits. -/
  | badPair (pair : List Char)
  deriving DecidableEq, Repr

/-- The wording of an error: what failed, and the cause behind it, if there is one. -/
def HexError.messages : HexError → List String
  | .unpaired => ["odd number of hex digits"]
  | .splitCharacter => ["hex digit out of range"]
  | .badPair pair => ["invalid hex byte " ++ Text.quoted pair, "invalid digit found in string"]

namespace HexText

/-- A word without the markers that it begins with. -/
def dropMarkers : List Char → List Char
  | '0' :: 'x' :: cs => dropMarkers cs
  | cs => cs

/-- The digits of a text: its words, without their markers, put together. -/
def digits (cs : List Char) : List Char := (Text.words cs).flatMap dropMarkers

/-- How many octets a text has in UTF-8. -/
def sizeInOctets (cs : List Char) : Nat := cs.foldr (·.utf8Size + ·) 0

/-- The octet that a pair stands for. -/
def pairValue? (high low : Char) : Option UInt8 := do
  let l ← Text.hexValue? low
  if high = '+' then return UInt8.ofNat l
  return UInt8.ofNat ((← Text.hexValue? high) * 16 + l)

/-- Reads pairs; the octets read before come last one first. -/
def readPairs (read : Octets) : List Char → Except HexError Octets
  | [] => .ok read.reverse
  | [c] => .error (if c.utf8Size = 2 then .badPair [c] else .splitCharacter)
  | c :: d :: cs =>
    if c.utf8Size = 2 then .error (.badPair [c])
    else if c.utf8Size ≠ 1 ∨ d.utf8Size ≠ 1 then .error .splitCharacter
    else match pairValue? c d with
      | some b => readPairs (b :: read) cs
      | none => .error (.badPair [c, d])

/-- The octets that a text stands for. -/
def octets (text : String) : Except HexError Octets :=
  let cs := digits text.toList
  if sizeInOctets cs % 2 ≠ 0 then .error .unpaired else readPairs [] cs

end HexText

end OpenFlow
