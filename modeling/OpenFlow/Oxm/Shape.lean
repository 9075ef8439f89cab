import OpenFlow.Octets.Decoder

set_option autoImplicit false

/-! # Values of match fields

A match field carries a value of a fixed width, and its mask, if it has one, is of the same width.
The `Shape` of a field gives the width and tells how the value is read by people: as a number or as
an address. On the wire all shapes are alike: the bits of the value, most significant first. -/

namespace OpenFlow

/-- What kind of value a match field carries. -/
inductive Shape where
  | u8 | u16 | u24 | u32 | u64 | mac | ipv4 | ipv6
  deriving DecidableEq, Repr

namespace Shape

/-- All shapes. -/
def all : List Shape := [.u8, .u16, .u24, .u32, .u64, .mac, .ipv4, .ipv6]

/-- The name of a shape. -/
def name : Shape → String
  | .u8 => "u8"
  | .u16 => "u16"
  | .u24 => "u24"
  | .u32 => "u32"
  | .u64 => "u64"
  | .mac => "mac"
  | .ipv4 => "ipv4"
  | .ipv6 => "ipv6"

/-- How many octets a value has. -/
def width : Shape → Nat
  | .u8 => 1
  | .u16 => 2
  | .u24 => 3
  | .u32 | .ipv4 => 4
  | .mac => 6
  | .u64 => 8
  | .ipv6 => 16

/-- Whether values are numbers; addresses are not. -/
def isInteger : Shape → Bool
  | .u8 | .u16 | .u24 | .u32 | .u64 => true
  | .mac | .ipv4 | .ipv6 => false

/-- Whether the order of octets matters to a value: it is a number of several octets. -/
def convertsByteOrder (s : Shape) : Bool := s.isInteger && decide (1 < s.width)

/-- The largest number of a shape of numbers. -/
def maxValue? (s : Shape) : Option Nat :=
  if s.isInteger then some (Nat.pow 256 s.width - 1) else none

end Shape

/-- The bits of a value, or of a mask, of a shape. -/
abbrev Value (s : Shape) : Type := BitVec (8 * s.width)

namespace Value

variable {s : Shape}

/-- The octets of a value. -/
def octets (v : Value s) : Octets := bigEndian s.width v.toNat

/-- Reads a value. -/
def read (s : Shape) : Decoder (Value s) := do
  return BitVec.ofNat (8 * s.width) (← Decoder.word s.width)

/-- The value as a number, if its shape is one of numbers. -/
def toNat? (v : Value s) : Option Nat := if s.isInteger then some v.toNat else none

/-- No bit of the value is set where the mask is clear. -/
def fits (v mask : Value s) : Bool := v &&& ~~~mask == 0

/-- All bits are set: as a mask, the whole value counts. -/
def isAllOnes (v : Value s) : Bool := v == BitVec.allOnes (8 * s.width)

/-- No bit is set: as a mask, nothing of the value counts. -/
def isZero (v : Value s) : Bool := v == 0

end Value

/-! ## Numbers of three octets -/

/-- The largest number of three octets. -/
def u24Max : Nat := 0xffffff

/-- A number that has three octets. -/
def u24OfNat? (n : Nat) : Option (Value .u24) :=
  if n ≤ u24Max then some (BitVec.ofNat 24 n) else none

/-- The low three octets of a number. -/
def u24Low (n : Nat) : Value .u24 := BitVec.ofNat 24 n

/-! ## Link addresses -/

/-- A link address as people write it: its octets, with colons between them. -/
def Value.macText (v : Value .mac) : String :=
  String.intercalate ":" (v.octets.map Text.hexOctet)

/-- The address goes to a group of stations: the lowest bit of its first octet is set. -/
def Value.isMulticast (v : Value .mac) : Bool :=
  match v.octets with
  | b :: _ => b.toNat % 2 == 1
  | [] => false

end OpenFlow
