import OpenFlow.Action.Basic

set_option autoImplicit false

/-! # Buckets

A group of the switch is a list of buckets, each an action set in its own right. A bucket may be
chosen by weight, or by whether a port or a group is alive. -/

namespace OpenFlow

/-- A bucket of a group. -/
structure Bucket where
  weight : UInt16
  watchPort : UInt32
  watchGroup : UInt32
  actions : List Action
  deriving DecidableEq

namespace Bucket

/-- A bucket that is chosen whatever else holds: as in groups that use all their buckets, or have
    but one. -/
def always (actions : List Action) : Bucket := ⟨0, Port.any, Group.any, actions⟩

/-- A bucket that is chosen by weight. -/
def select (weight : UInt16) (actions : List Action) : Bucket :=
  ⟨weight, Port.any, Group.any, actions⟩

/-- A bucket that is chosen while a port or a group is alive. -/
def failover (watchPort watchGroup : UInt32) (actions : List Action) : Bucket :=
  ⟨0, watchPort, watchGroup, actions⟩

/-- How many octets come before the actions. -/
def headerLength : Nat := 16

/-- How many octets a bucket has. -/
def length (b : Bucket) : Nat := headerLength + Sequence.length b.actions

/-- Writes a bucket. -/
def encode (b : Bucket) : Encoding :=
  .lengthField .bucket b.length
    ++ .ofOctets (bigEndian 2 b.weight.toNat ++ bigEndian 4 b.watchPort.toNat
      ++ bigEndian 4 b.watchGroup.toNat ++ zeros 4)
    ++ Sequence.encode b.actions

/-- Reads a bucket. -/
def decode (limits : Limits) : Decoder Bucket :=
  Decoder.measured .bucket headerLength 0 do
    Decoder.skip 2
    let weight ← Decoder.u16
    let watchPort ← Decoder.u32
    let watchGroup ← Decoder.u32
    Decoder.skip 4
    let actions ← Sequence.decode limits
    return ⟨weight, watchPort, watchGroup, actions⟩

/-- Checks each action, and that no two have one place in a set. -/
def validate (b : Bucket) : Except Violation Unit := do
  validateEach Action.validate b.actions
  Action.checkUniqueKeys b.actions

/-- The buckets mean the same. -/
def same (a b : Bucket) : Bool :=
  a.weight == b.weight && a.watchPort == b.watchPort && a.watchGroup == b.watchGroup
    && sameAll Action.same a.actions b.actions

instance : Entry Bucket where
  element := .bucket
  decode := decode
  encode := encode
  length := length
  validate := validate
  resource := .buckets
  same := same
  validateAll := validateEach validate

end Bucket

end OpenFlow
