import OpenFlow.Action.Kind
import OpenFlow.Header
import OpenFlow.Oxm.Field

set_option autoImplicit false

/-! # Actions

What a switch does with a packet. Most actions are a header and one number, eight octets in all;
`output` has sixteen, and `setField` holds a match field and is filled up to a multiple of eight.

In a list an action may be repeated in another form, but not as it is. In a set there is one action
of each kind, except that each field may be set once: the key of an action is made of its priority,
its kind and the field that it sets, so that a set is also in the order in which its actions are
carried out. -/

namespace OpenFlow

/-- An action. -/
inductive Action where
  | output (port : UInt32) (maxLength : UInt16)
  | copyTtlOut
  | copyTtlIn
  | setMplsTtl (ttl : UInt8)
  | decMplsTtl
  | pushVlan (ethertype : UInt16)
  | popVlan
  | pushMpls (ethertype : UInt16)
  | popMpls (ethertype : UInt16)
  | setQueue (queueId : UInt32)
  | group (groupId : UInt32)
  | setNwTtl (ttl : UInt8)
  | decNwTtl
  | setField (field : Field)
  | pushPbb (ethertype : UInt16)
  | popPbb
  deriving DecidableEq

namespace Action

/-- The kind of an action. -/
def kind : Action → ActionKind
  | output .. => .output
  | copyTtlOut => .copyTtlOut
  | copyTtlIn => .copyTtlIn
  | setMplsTtl _ => .setMplsTtl
  | decMplsTtl => .decMplsTtl
  | pushVlan _ => .pushVlan
  | popVlan => .popVlan
  | pushMpls _ => .pushMpls
  | popMpls _ => .popMpls
  | setQueue _ => .setQueue
  | group _ => .group
  | setNwTtl _ => .setNwTtl
  | decNwTtl => .decNwTtl
  | setField _ => .setField
  | pushPbb _ => .pushPbb
  | popPbb => .popPbb

/-- The action of a kind that needs no parameters. -/
def bare? : ActionKind → Option Action
  | .copyTtlOut => some copyTtlOut
  | .copyTtlIn => some copyTtlIn
  | .decMplsTtl => some decMplsTtl
  | .popVlan => some popVlan
  | .decNwTtl => some decNwTtl
  | .popPbb => some popPbb
  | _ => none

/-- Sends the whole packet out of a port. -/
def outputWhole (port : UInt32) : Action := output port PacketLength.noBuffer

/-- Sends the first octets of a packet to the controller. -/
def outputToController (maxLength : UInt16) : Action := output Port.controller maxLength

/-! ## Reading and writing -/

/-- How many octets an action has. -/
def length : Action → Nat
  | output .. => 16
  | setField field => padded (headerLength + field.length)
  | _ => 8

/-- The octets after the header. -/
def body : Action → Octets
  | output port maxLength => bigEndian 4 port.toNat ++ bigEndian 2 maxLength.toNat ++ zeros 6
  | setMplsTtl ttl | setNwTtl ttl => bigEndian 1 ttl.toNat ++ zeros 3
  | pushVlan ethertype | pushMpls ethertype | popMpls ethertype | pushPbb ethertype =>
    bigEndian 2 ethertype.toNat ++ zeros 2
  | setQueue queueId => bigEndian 4 queueId.toNat
  | group groupId => bigEndian 4 groupId.toNat
  | setField field => field.octets ++ padding (headerLength + field.length)
  | copyTtlOut | copyTtlIn | decMplsTtl | popVlan | decNwTtl | popPbb => zeros 4

/-- Writes an action. -/
def encode (a : Action) : Encoding := .header .action a.kind.code a.length ++ .ofOctets a.body

/-- Reads the octets after the header of an action that sets a field. The action must have the
    length that its field asks for. -/
def decodeSetField (h : Header) : Decoder Action := do
  let field ← Field.decode
  if h.size ≠ padded (headerLength + field.length) then
    Decoder.fail (.invalidLength .action ActionKind.setField.code h.size)
  return setField field

/-- The layout of actions that have eight octets. -/
def word (body : Decoder Action) : Option (Layout Action) := some (.fixed 8 body)

/-- How actions of a kind are laid out. There is no telling what an action of an experimenter
    holds. -/
def layout? : ActionKind → Option (Layout Action)
  | .output => some <| .fixed 16 do
    let port ← Decoder.u32
    let maxLength ← Decoder.u16
    return output port maxLength
  | .copyTtlOut => word do return copyTtlOut
  | .copyTtlIn => word do return copyTtlIn
  | .setMplsTtl => word do return setMplsTtl (← Decoder.u8)
  | .decMplsTtl => word do return decMplsTtl
  | .pushVlan => word do return pushVlan (← Decoder.u16)
  | .popVlan => word do return popVlan
  | .pushMpls => word do return pushMpls (← Decoder.u16)
  | .popMpls => word do return popMpls (← Decoder.u16)
  | .setQueue => word do return setQueue (← Decoder.u32)
  | .group => word do return group (← Decoder.u32)
  | .setNwTtl => word do return setNwTtl (← Decoder.u8)
  | .decNwTtl => word do return decNwTtl
  | .setField => some (.atLeast 8 decodeSetField)
  | .pushPbb => word do return pushPbb (← Decoder.u16)
  | .popPbb => word do return popPbb
  | .experimenter => none

/-- Reads an action of one kind; one of a kind without a layout is stepped over. -/
def decodeAs (k : ActionKind) : Decoder Action :=
  match layout? k with
  | some layout => Decoder.element .action k.code layout
  | none => Header.skipUnknown .action .paddingIncluded

/-- Reads an action; one whose kind has no decoder is stepped over. -/
def decode : Decoder Action := do
  let h ← Header.expect .action
  match ActionKind.ofCode? h.code with
  | some k => decodeAs k
  | none => Header.skipUnknown .action .paddingIncluded

/-! ## Rules -/

/-- An ethertype is one of some. -/
def checkEthertype (allowed : List UInt16) (ethertype : UInt16) : Except Fault Unit :=
  if ethertype ∈ allowed then .ok () else .error (.unsupportedEthertype ethertype.toNat)

/-- The numbers of an action are ones that it may have. -/
def checkNumbers : Action → Except Fault Unit
  | output port maxLength =>
    if port = 0 ∨ port = Port.any then .error (.reserved port.toNat)
    else if maxLength = PacketLength.noBuffer then .ok ()
    else checkAtMost PacketLength.max.toNat maxLength.toNat
  | pushVlan ethertype => checkEthertype [Ethertype.vlan, Ethertype.serviceVlan] ethertype
  | pushMpls ethertype => checkEthertype [Ethertype.mpls, Ethertype.mplsMulticast] ethertype
  | pushPbb ethertype => checkEthertype [Ethertype.pbb] ethertype
  | setQueue queueId => if queueId = Queue.all then .error (.reserved queueId.toNat) else .ok ()
  | group groupId => checkAtMost Group.max.toNat groupId.toNat
  | setField field => if field.hasMask then .error .maskNotAllowed else .ok ()
  | _ => .ok ()

/-- Checks the numbers of an action, and the field that it sets. -/
def validate (a : Action) : Except Violation Unit := do
  a.checkNumbers.mapError (.invalidValue a.kind.name)
  match a with
  | setField field => field.validate
  | _ => return ()

/-- The actions mean the same. -/
def same : Action → Action → Bool
  | setField f, setField g => f.same g
  | a, b => a == b

/-- Checks each action of a list, and that none is repeated as it is. -/
def validateList (as : List Action) : Except Violation Unit :=
  validateDistinct validate same (fun a => .duplicateAction a.kind.name) [] as

/-! ## Sets -/

/-- When an action of a set is carried out. -/
def priority (a : Action) : Nat := a.kind.priority

/-- Where an action stands in a set: by priority, then by kind, then by the field that it sets. -/
def key (a : Action) : Nat :=
  a.priority <<< 48 + a.kind.code <<< 32 +
    match a with
    | setField field => field.kind.oxmType
    | _ => 0

/-- No two actions of a list have one place in a set. -/
def checkUniqueKeys (as : List Action) : Except Violation Unit :=
  validateDistinct (fun _ => .ok ()) (fun a b => a.key == b.key)
    (fun a => .duplicateAction a.kind.name) [] as

instance : Keyed Action where
  element := .action
  decode _ := decode
  encode := encode
  length := length
  validate := validate
  resource := .actions
  same := same
  validateAll := validateList
  container := .actionSet
  key := key
  vacuous _ := false

instance : Kinded Action where
  Kind := ActionKind
  kinds := ActionKind.all
  code := ActionKind.code
  name := ActionKind.name
  kind := kind
  decodeAs _ := decodeAs
  alike k l := k == l

end Action

end OpenFlow
