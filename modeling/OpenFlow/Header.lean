import OpenFlow.Octets.Encoding
import OpenFlow.Padding

set_option autoImplicit false

/-! # Headers of elements

An element opens with its kind and its length, two octets each; the length counts the header.
`Header.expect` looks at the header of the next element without moving, and accepts it only if its
length covers the header and the octets that it announces are there. Everything after it may
therefore cut the element out of the input without fear of running over the end:
`Decoder.element` does so for one kind, and `Header.skipElement` steps over one of any kind. -/

namespace OpenFlow

/-- How many octets a header has. -/
def headerLength : Nat := 4

/-- The kind of an element and its length in octets, header included. -/
structure Header where
  kind : UInt16
  length : UInt16
  deriving DecidableEq, Repr

namespace Header

/-- The length as a count of octets. -/
def size (h : Header) : Nat := h.length.toNat

/-- The kind as a number. -/
def code (h : Header) : Nat := h.kind.toNat

/-- The octets of a header. -/
def octets (h : Header) : Octets := bigEndian 2 h.code ++ bigEndian 2 h.size

/-- Reads a header, whatever it announces. -/
def read : Decoder Header := do
  let kind ← Decoder.u16
  let length ← Decoder.u16
  return ⟨kind, length⟩

/-- The header of the next element, which must be there in full. -/
def expect (element : Element) : Decoder Header := do
  Decoder.need element headerLength
  let h ← Decoder.ahead read
  if h.size < headerLength then
    Decoder.fail (.invalidLength element h.code h.size)
  Decoder.need element h.size
  return h

/-- Steps over an element and the padding that its length does not cover. -/
def skipElement (element : Element) (framing : Framing) : Decoder Header := do
  let h ← expect element
  Decoder.skip h.size
  if framing = .paddingExcluded then
    Decoder.skipPadding element h.size
  return h

/-- Steps over an element whose kind has no decoder, and reports it. -/
def skipUnknown {α : Type} (element : Element) (framing : Framing) : Decoder α := do
  let h ← skipElement element framing
  Decoder.fail (.unknownKind element h.code h.size)

end Header

/-- How the elements of one kind are laid out: the lengths that they can have, and the decoder of
    what follows the header, which gets the header and sees no further than the element goes. -/
structure Layout (α : Type) where
  fits : Nat → Bool
  body : Header → Decoder α

namespace Layout

/-- The layout of a kind that has one length. -/
def fixed {α : Type} (length : Nat) (body : Decoder α) : Layout α := ⟨(· == length), fun _ => body⟩

/-- The layout of a kind that has a least length. -/
def atLeast {α : Type} (least : Nat) (body : Header → Decoder α) : Layout α := ⟨(least ≤ ·), body⟩

end Layout

namespace Decoder

/-- Reads one element of the kind `code`. -/
def element {α : Type} (e : Element) (code : Nat) (layout : Layout α) : Decoder α := do
  let h ← Header.expect e
  if h.code ≠ code then
    fail (.kindMismatch e code h.code)
  if layout.fits h.size = false then
    fail (.invalidLength e code h.size)
  within h.size (do skip headerLength; layout.body h)

/-- Reads an element whose kind has one length. -/
def fixed {α : Type} (e : Element) (code length : Nat) (body : Decoder α) : Decoder α :=
  element e code (.fixed length body)

/-- Reads an element whose kind has a least length. -/
def atLeast {α : Type} (e : Element) (code least : Nat) (body : Header → Decoder α) : Decoder α :=
  element e code (.atLeast least body)

/-- Reads one element of the kind `code`, and steps over the padding after it, which its length does
    not cover. -/
def elementPadded {α : Type} (e : Element) (code : Nat) (layout : Layout α) : Decoder α := do
  let (size, a) ← element e code ⟨layout.fits, fun h => do return (h.size, ← layout.body h)⟩
  skipPadding e size
  return a

/-- Reads an element without a kind, of at least `least` octets, that declares its length in the
    two octets after the first `offset`. -/
def measured {α : Type} (e : Element) (least offset : Nat) (body : Decoder α) : Decoder α := do
  need e least
  let length ← ahead (do skip offset; word 2)
  if length < least then
    fail (.invalidLength e 0 length)
  need e length
  within length body

end Decoder

end OpenFlow
