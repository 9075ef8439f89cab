import OpenFlow.Action.Basic
import OpenFlow.Instruction.Kind

set_option autoImplicit false

/-! # Instructions

What a flow entry does with the packets that it matches. Two instructions hold actions:
`writeActions` adds them to the action set of a packet, so no two may have one place there, and
`applyActions` carries them out at once and in order. A list of instructions holds at most one of
each kind. -/

namespace OpenFlow

/-- An instruction. -/
inductive Instruction where
  | gotoTable (tableId : UInt8)
  | writeMetadata (metadata mask : UInt64)
  | writeActions (actions : List Action)
  | applyActions (actions : List Action)
  | clearActions
  | meter (meterId : UInt32)
  deriving DecidableEq

namespace Instruction

/-- The kind of an instruction. -/
def kind : Instruction → InstructionKind
  | gotoTable _ => .gotoTable
  | writeMetadata .. => .writeMetadata
  | writeActions _ => .writeActions
  | applyActions _ => .applyActions
  | clearActions => .clearActions
  | meter _ => .meter

/-- Adds the actions of a set, in the order in which they are carried out. -/
def ofActionSet (actions : KeyedSet Action) : Instruction := writeActions actions.toList

/-- The actions of a list as a set, if no two have one place there. -/
def actionSet (actions : List Action) : Except Violation (KeyedSet Action) := do
  Action.checkUniqueKeys actions
  return .ofList actions

/-! ## Reading and writing -/

/-- How many octets an instruction has. -/
def length : Instruction → Nat
  | gotoTable _ | clearActions | meter _ => 8
  | writeMetadata .. => 24
  | writeActions actions | applyActions actions => 8 + Sequence.length actions

/-- The octets after the header. -/
def body : Instruction → Encoding
  | gotoTable tableId => .ofOctets (bigEndian 1 tableId.toNat ++ zeros 3)
  | writeMetadata metadata mask =>
    .ofOctets (zeros 4 ++ bigEndian 8 metadata.toNat ++ bigEndian 8 mask.toNat)
  | writeActions actions | applyActions actions => .ofOctets (zeros 4) ++ Sequence.encode actions
  | clearActions => .ofOctets (zeros 4)
  | meter meterId => .ofOctets (bigEndian 4 meterId.toNat)

/-- Writes an instruction. -/
def encode (i : Instruction) : Encoding :=
  .header .instruction i.kind.code i.length ++ i.body

/-- The layout of instructions that hold actions. -/
def holdingActions (limits : Limits) (make : List Action → Instruction) : Layout Instruction :=
  .atLeast 8 fun _ => do
    Decoder.skip 4
    return make (← Sequence.decode limits)

/-- How instructions of a kind are laid out. There is no telling what an instruction of an
    experimenter holds. -/
def layout? (limits : Limits) : InstructionKind → Option (Layout Instruction)
  | .gotoTable => some <| .fixed 8 do return gotoTable (← Decoder.u8)
  | .writeMetadata => some <| .fixed 24 do
    Decoder.skip 4
    let metadata ← Decoder.u64
    let mask ← Decoder.u64
    return writeMetadata metadata mask
  | .writeActions => some (holdingActions limits writeActions)
  | .applyActions => some (holdingActions limits applyActions)
  | .clearActions => some <| .fixed 8 do return clearActions
  | .meter => some <| .fixed 8 do return meter (← Decoder.u32)
  | .experimenter => none

/-- Reads an instruction of one kind; one of a kind without a layout is stepped over. -/
def decodeAs (limits : Limits) (k : InstructionKind) : Decoder Instruction :=
  match layout? limits k with
  | some layout => Decoder.element .instruction k.code layout
  | none => Header.skipUnknown .instruction .paddingIncluded

/-- Reads an instruction; one whose kind has no decoder is stepped over. -/
def decode (limits : Limits) : Decoder Instruction := do
  let h ← Header.expect .instruction
  match InstructionKind.ofCode? h.code with
  | some k => decodeAs limits k
  | none => Header.skipUnknown .instruction .paddingIncluded

/-! ## Rules -/

/-- The number of a meter that a packet may be sent through. -/
def checkMeterId (meterId : Nat) : Except Fault Unit :=
  if meterId = 0 then .error (.reserved 0) else checkAtMost Meter.max.toNat meterId

/-- Checks the numbers and the actions of an instruction. -/
def validate : Instruction → Except Violation Unit
  | gotoTable tableId =>
    (checkAtMost Table.max.toNat tableId.toNat).mapError (.invalidValue "table id")
  | meter meterId => (checkMeterId meterId.toNat).mapError (.invalidValue "meter id")
  | writeActions actions => do
    Action.validateList actions
    Action.checkUniqueKeys actions
  | applyActions actions => Action.validateList actions
  | writeMetadata .. | clearActions => .ok ()

/-- The instructions mean the same. -/
def same : Instruction → Instruction → Bool
  | writeActions as, writeActions bs | applyActions as, applyActions bs => sameAll Action.same as bs
  | i, j => i == j

/-- Checks each instruction of a list, and that no two are of one kind. -/
def validateList (is : List Instruction) : Except Violation Unit :=
  validateDistinct validate (fun i j => i.kind == j.kind)
    (fun i => .duplicateInstruction i.kind.name) [] is

/-! ## Sets -/

/-- When an instruction of a set is carried out. -/
def priority (i : Instruction) : Nat := i.kind.priority

/-- Where an instruction stands in a set: by priority, then by kind. -/
def key (i : Instruction) : Nat := i.priority <<< 48 + i.kind.code <<< 32

instance : Keyed Instruction where
  element := .instruction
  decode := decode
  encode := encode
  length := length
  validate := validate
  resource := .instructions
  same := same
  validateAll := validateList
  container := .instructionSet
  key := key
  vacuous _ := false

instance : Kinded Instruction where
  Kind := InstructionKind
  kinds := InstructionKind.all
  code := InstructionKind.code
  name := InstructionKind.name
  kind := kind
  decodeAs := decodeAs
  alike k l := k == l

end Instruction

end OpenFlow
