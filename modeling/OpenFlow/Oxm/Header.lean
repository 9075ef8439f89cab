import OpenFlow.Constants
import OpenFlow.Octets.Encoding
import OpenFlow.Padding

set_option autoImplicit false

/-! # Headers of match fields

A match field opens with four octets: the class of the field (16 bits), its number in the class
(7 bits), whether a mask follows the value (1 bit), and how many octets follow (8 bits). Class and
number together are the type of the field. -/

namespace OpenFlow

/-- The four octets that open a match field, as one number. -/
structure OxmHeader where
  raw : UInt32
  deriving DecidableEq, Repr

namespace OxmHeader

/-- How many octets a header has. -/
def width : Nat := 4

/-- The header of the given parts; of the number, the low seven bits count. -/
def ofParts (fieldClass : UInt16) (number : UInt8) (hasMask : Bool) (length : UInt8) : OxmHeader :=
  ⟨UInt32.ofNat (fieldClass.toNat * 65536 + number.toNat % 128 * 512
    + (if hasMask then 256 else 0) + length.toNat)⟩

/-- The class of the field. -/
def fieldClass (h : OxmHeader) : Nat := h.raw.toNat / 65536

/-- The number of the field in its class. -/
def number (h : OxmHeader) : Nat := h.raw.toNat / 512 % 128

/-- Whether a mask follows the value. -/
def hasMask (h : OxmHeader) : Bool := h.raw.toNat / 256 % 2 == 1

/-- How many octets follow the header. -/
def payloadLength (h : OxmHeader) : Nat := h.raw.toNat % 256

/-- Class and number of the field. -/
def oxmType (h : OxmHeader) : Nat := h.raw.toNat / 512

/-- The header of a type, without mask and payload; of the type, the low 23 bits count. -/
def ofType (oxmType : Nat) : OxmHeader := ⟨UInt32.ofNat (oxmType * 512)⟩

/-- The octets of a header. -/
def octets (h : OxmHeader) : Octets := bigEndian width h.raw.toNat

/-- Reads a header, whatever it announces. -/
def read : Decoder OxmHeader := do return ⟨← Decoder.u32⟩

/-- The header of the next field, which must be there in full; the cursor stays. -/
def expect : Decoder OxmHeader := do
  Decoder.need .oxmField width
  let h ← Decoder.ahead read
  Decoder.need .oxmField (width + h.payloadLength)
  return h

end OxmHeader

end OpenFlow
