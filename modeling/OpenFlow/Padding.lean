import OpenFlow.Octets.Decoder

set_option autoImplicit false

/-! # Padding

Elements of a message start at multiples of eight octets, and zeros fill the gap after an element
that ends elsewhere. `Framing` tells whether the length that an element declares covers the gap. -/

namespace OpenFlow

/-- Elements start at multiples of this many octets. -/
def alignment : Nat := 8

/-- How many octets bring `length` up to a multiple of `unit`; no unit asks for none. -/
def gapTo (length unit : Nat) : Nat :=
  if unit = 0 then 0 else (unit - length % unit) % unit

/-- How many octets of padding follow an element of `length` octets. -/
def gap (length : Nat) : Nat := gapTo length alignment

/-- `length` with the padding after it. Lengths have no bound here; those so near to `2 ^ 64` that
    the sum overflows a machine word are outside this model. -/
def padded (length : Nat) : Nat := length + gap length

/-- The padding after an element of `length` octets. -/
def padding (length : Nat) : Octets := zeros (gap length)

/-- Whether a declared length covers the padding. -/
inductive Framing where
  /-- As in actions, instructions, buckets and queue properties. -/
  | paddingIncluded
  /-- As in matches and table feature properties. -/
  | paddingExcluded
  deriving DecidableEq, Repr

/-- How many octets an element occupies that declares `length`; for lengths near `2 ^ 64` see
    `padded`. -/
def Framing.stride : Framing → Nat → Nat
  | .paddingIncluded, length => length
  | .paddingExcluded, length => padded length

namespace Decoder

/-- Fails, without moving, unless `n` more octets of an element are there. -/
def need (element : Element) (n : Nat) : Decoder Unit := fun c =>
  if c.Holds n then (.ok (), c) else (.error (.truncated element n c.remaining), c)

/-- Steps over the padding after an element of `length` octets; its octets are not looked at. -/
def skipPadding (element : Element) (length : Nat) : Decoder Unit := do
  need element (gap length)
  skip (gap length)

end Decoder

/-! ## The gap closes -/

theorem gap_eq (length : Nat) : gap length = (8 - length % 8) % 8 := rfl

theorem gap_lt (length : Nat) : gap length < 8 := by
  rw [gap_eq]
  exact Nat.mod_lt _ (by decide)

theorem padded_mod (length : Nat) : padded length % 8 = 0 := by
  rw [padded, gap_eq]
  omega

theorem padded_lt (length : Nat) : padded length < length + 8 :=
  Nat.add_lt_add_left (gap_lt length) length

theorem padded_eq (length : Nat) : padded length = length + (padding length).length := by
  rw [padding, length_zeros, padded]

end OpenFlow
