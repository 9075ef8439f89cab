import OpenFlow.Element

set_option autoImplicit false

/-! # Limits

Bounds on what is accepted, so that a hostile message cannot make a decoder work without end: on
the buffer and the number of records of a scan, which interprets nothing, and on the number of
entries of each kind of decoded collection. -/

namespace OpenFlow

/-- How much there may be of each bounded quantity. -/
structure Limits where
  of : Resource → Nat

namespace Limits

/-- The bound that bounds nothing: the largest 64-bit number. -/
def unbounded : Nat := 0xffffffffffffffff

/-- Bounds for messages from the network: as many octets as a message can have, as many records as
    fit into them, and fewer decoded entries. -/
def standard : Limits where
  of
    | .bufferOctets => 0xffff
    | .records => 0xffff / 4
    | .actions => 1024
    | .instructions => 64
    | .oxmFields => 64
    | .propertyIds => 1024
    | .properties => 64
    | .buckets => 256

/-- Small bounds, so that tests can reach them. -/
def small : Limits where
  of
    | .bufferOctets => 1024
    | .records => 64
    | .actions => 32
    | .instructions => 8
    | .oxmFields => 40
    | .propertyIds => 64
    | .properties => 16
    | .buckets => 16

/-- No bounds. -/
def unlimited : Limits := ⟨fun _ => unbounded⟩

/-- The limits with the bound of one quantity replaced. -/
def set (limits : Limits) (r : Resource) (bound : Nat) : Limits :=
  ⟨fun r' => if r' = r then bound else limits.of r'⟩

end Limits

end OpenFlow
