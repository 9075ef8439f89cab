import OpenFlow.Constants
import OpenFlow.Header
import OpenFlow.Sequence

set_option autoImplicit false

/-! # Queues

A queue of a port with its properties: a least rate, a greatest rate, and whatever experimenters
add. Rates are in tenths of a percent of the rate of the port. -/

namespace OpenFlow

/-! ## Properties -/

/-- A kind of queue property. -/
inductive QueuePropertyKind where
  | minRate | maxRate | experimenter
  deriving DecidableEq, Repr

namespace QueuePropertyKind

/-- All kinds, in the order of their codes. -/
def all : List QueuePropertyKind := [.minRate, .maxRate, .experimenter]

/-- The code that announces a kind. -/
def code : QueuePropertyKind → Nat
  | .minRate => 1
  | .maxRate => 2
  | .experimenter => 0xffff

/-- The protocol's name of a kind. -/
def name : QueuePropertyKind → String
  | .minRate => "min_rate"
  | .maxRate => "max_rate"
  | .experimenter => "experimenter"

/-- The kind that a code announces. -/
def ofCode? (code : Nat) : Option QueuePropertyKind := all.find? (·.code == code)

/-- The kind of a name. -/
def ofName? (name : String) : Option QueuePropertyKind := all.find? (·.name == name)

theorem ofCode?_code (k : QueuePropertyKind) : ofCode? k.code = some k := by
  cases k <;> rfl

end QueuePropertyKind

/-- The data of an experimenter's property. The length of a property covers its padding, so zeros
    at the end cannot be told from padding: data always fills up a multiple of eight octets. -/
structure AlignedData where
  octets : Octets
  aligned : octets.length % alignment = 0
  deriving DecidableEq

/-- Data that is filled up with zeros. -/
def AlignedData.fill (octets : Octets) : AlignedData :=
  ⟨octets ++ padding octets.length, by
    have := padded_mod octets.length
    simpa [padding, padded, alignment] using this⟩

/-- A property of a queue. -/
inductive QueueProperty where
  | minRate (rate : UInt16)
  | maxRate (rate : UInt16)
  | experimenter (experimenter : UInt32) (data : AlignedData)
  deriving DecidableEq

namespace QueueProperty

/-- The kind of a property. -/
def kind : QueueProperty → QueuePropertyKind
  | minRate _ => .minRate
  | maxRate _ => .maxRate
  | experimenter .. => .experimenter

/-- A rate above the whole rate of the port turns the property off. -/
def rateDisabled (rate : UInt16) : Bool := decide (1000 < rate.toNat)

/-- A rate other than the one that stands for none. -/
def rateConfigured (rate : UInt16) : Bool := rate != Queue.rateUnconfigured

/-- How many octets a property has. -/
def length : QueueProperty → Nat
  | minRate _ | maxRate _ => 16
  | experimenter _ data => 16 + data.octets.length

/-- The octets after the header. -/
def body : QueueProperty → Octets
  | minRate rate | maxRate rate => zeros 4 ++ bigEndian 2 rate.toNat ++ zeros 6
  | experimenter number data =>
    zeros 4 ++ bigEndian 4 number.toNat ++ zeros 4 ++ data.octets

/-- Writes a property. -/
def encode (p : QueueProperty) : Encoding :=
  .header .queueProperty p.kind.code p.length ++ .ofOctets p.body

/-- Reads the octets after the header of an experimenter's property. -/
def decodeExperimenter (h : Header) : Decoder QueueProperty := do
  Decoder.skip 4
  let number ← Decoder.u32
  Decoder.skip 4
  let data ← Decoder.remainder
  if aligned : data.length % alignment = 0 then
    return .experimenter number ⟨data, aligned⟩
  else
    Decoder.fail (.invalidLength .queueProperty QueuePropertyKind.experimenter.code h.size)

/-- The layout of properties that hold a rate. -/
def holdingRate (make : UInt16 → QueueProperty) : Layout QueueProperty :=
  .fixed 16 do
    Decoder.skip 4
    return make (← Decoder.u16)

/-- How properties of a kind are laid out. -/
def layout : QueuePropertyKind → Layout QueueProperty
  | .minRate => holdingRate minRate
  | .maxRate => holdingRate maxRate
  | .experimenter => .atLeast 16 decodeExperimenter

/-- Reads a property of one kind. -/
def decodeAs (k : QueuePropertyKind) : Decoder QueueProperty :=
  Decoder.element .queueProperty k.code (layout k)

/-- Reads a property; one of an unknown kind is stepped over. -/
def decode : Decoder QueueProperty := do
  let h ← Header.expect .queueProperty
  match QueuePropertyKind.ofCode? h.code with
  | some k => decodeAs k
  | none => Header.skipUnknown .queueProperty .paddingIncluded

instance : Entry QueueProperty where
  element := .queueProperty
  decode _ := decode
  encode := encode
  length := length
  validate _ := .ok ()
  resource := .properties
  same p q := p == q
  validateAll _ := .ok ()

instance : Kinded QueueProperty where
  Kind := QueuePropertyKind
  kinds := QueuePropertyKind.all
  code := QueuePropertyKind.code
  name := QueuePropertyKind.name
  kind := kind
  decodeAs _ := decodeAs
  alike k l := k == l

end QueueProperty

/-! ## Queues of a port -/

/-- A queue of a port. -/
structure PacketQueue where
  queueId : UInt32
  port : UInt32
  properties : List QueueProperty
  deriving DecidableEq

namespace PacketQueue

/-- The least rate, if a property sets one; of several, the first counts. -/
def minRate? (q : PacketQueue) : Option UInt16 :=
  q.properties.findSome? fun | .minRate rate => some rate | _ => none

/-- The greatest rate, if a property sets one; of several, the first counts. -/
def maxRate? (q : PacketQueue) : Option UInt16 :=
  q.properties.findSome? fun | .maxRate rate => some rate | _ => none

/-- How many octets come before the properties. -/
def headerLength : Nat := 16

/-- How many octets a queue has. -/
def length (q : PacketQueue) : Nat := headerLength + Sequence.length q.properties

/-- Writes a queue. Its length comes after two of its numbers. -/
def encode (q : PacketQueue) : Encoding :=
  .ofOctets (bigEndian 4 q.queueId.toNat ++ bigEndian 4 q.port.toNat)
    ++ .lengthField .packetQueue q.length
    ++ .ofOctets (zeros 6)
    ++ Sequence.encode q.properties

/-- Reads a queue. -/
def decode (limits : Limits) : Decoder PacketQueue :=
  Decoder.measured .packetQueue headerLength 8 do
    let queueId ← Decoder.u32
    let port ← Decoder.u32
    Decoder.skip 8
    let properties ← Sequence.decode limits
    return ⟨queueId, port, properties⟩

instance : Record PacketQueue where
  element := .packetQueue
  decode := decode
  encode := encode
  length := length
  validate _ := .ok ()

end PacketQueue

end OpenFlow
