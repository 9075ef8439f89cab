set_option autoImplicit false

/-! # Hexadecimal numerals

Codes, keys and values are shown in base sixteen after `0x`, in small letters: bare in running
text, or filled up with zeros to a number of digits where columns or field widths matter. -/

namespace OpenFlow.Text

/-- The digits of `n` in base sixteen, as few as possible. -/
def hexDigits (n : Nat) : List Char := Nat.toDigits 16 n

/-- `n` in base sixteen after `0x`, with as few digits as possible. -/
def hex (n : Nat) : String := "0x" ++ String.ofList (hexDigits n)

/-- `n` in base sixteen after `0x`, filled up with zeros to `width` digits. -/
def hexFilled (width n : Nat) : String :=
  let digits := hexDigits n
  "0x" ++ String.ofList (List.replicate (width - digits.length) '0' ++ digits)

/-- The value of a digit in base sixteen, small or capital. -/
def hexValue? (c : Char) : Option Nat :=
  if '0' ≤ c ∧ c ≤ '9' then some (c.toNat - '0'.toNat)
  else if 'a' ≤ c ∧ c ≤ 'f' then some (c.toNat - 'a'.toNat + 10)
  else if 'A' ≤ c ∧ c ≤ 'F' then some (c.toNat - 'A'.toNat + 10)
  else none

/-- One octet as two digits. -/
def hexOctet (b : UInt8) : String :=
  String.ofList [Nat.digitChar (b.toNat / 16), Nat.digitChar (b.toNat % 16)]

end OpenFlow.Text
