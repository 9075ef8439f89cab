import OpenFlow.Action.Kind
import OpenFlow.Header
import OpenFlow.Instruction.Kind
import OpenFlow.Oxm.Kind
import OpenFlow.Sequence

set_option autoImplicit false

/-! # Ids in the features of a table

A table tells what it can do in lists of ids: of actions, of instructions, of match fields and of
other tables. An id of an action or an instruction is a header without a body, unless it belongs to
an experimenter. Which form an id of a match field has is read off its header alone. -/

namespace OpenFlow

/-! ## Actions and instructions -/

/-- What an id with a kind code names. -/
inductive KindFamily where
  | action | instruction
  deriving DecidableEq, Repr

/-- What ids of a family are called in errors of reading and writing. -/
def KindFamily.element : KindFamily → Element
  | .action => .actionId
  | .instruction => .instructionId

/-- What ids of a family are called where their values are checked. -/
def KindFamily.label : KindFamily → String
  | .action => "action_id"
  | .instruction => "instruction_id"

/-- The name of the kind that a code announces in a family. -/
def KindFamily.kindName? : KindFamily → Nat → Option String
  | .action, code => (ActionKind.ofCode? code).map ActionKind.name
  | .instruction, code => (InstructionKind.ofCode? code).map InstructionKind.name

/-- The code of the kind of a name in a family. -/
def KindFamily.kindCode? : KindFamily → String → Option Nat
  | .action, name => (ActionKind.ofName? name).map ActionKind.code
  | .instruction, name => (InstructionKind.ofName? name).map InstructionKind.code

/-- The code that announces an experimenter. -/
def experimenterCode : UInt16 := 0xffff

/-- The id of a kind of action or instruction. -/
inductive KindId (family : KindFamily) where
  /-- A kind by its code, known or not. -/
  | standard (code : UInt16)
  | experimenter (experimenter : UInt32) (data : Octets)
  deriving DecidableEq, Repr

/-- The id of a kind of action. -/
abbrev ActionId : Type := KindId .action

/-- The id of a kind of instruction. -/
abbrev InstructionId : Type := KindId .instruction

namespace KindId

variable {family : KindFamily}

/-- The id of a code; the code of experimenters gives an experimenter without number and data. -/
def ofCode (code : UInt16) : KindId family :=
  if code = experimenterCode then .experimenter 0 [] else .standard code

/-- The code that stands in the header. -/
def code : KindId family → UInt16
  | standard code => code
  | experimenter .. => experimenterCode

/-- The name of the kind, if it is known. -/
def kindName? (id : KindId family) : Option String := family.kindName? id.code.toNat

/-- How many octets an id has. -/
def length : KindId family → Nat
  | standard _ => headerLength
  | experimenter _ data => headerLength + 4 + data.length

/-- The octets after the header. -/
def body : KindId family → Octets
  | standard _ => []
  | experimenter number data => bigEndian 4 number.toNat ++ data

/-- Writes an id. -/
def encode (id : KindId family) : Encoding :=
  .header family.element id.code.toNat id.length ++ .ofOctets id.body

/-- Reads the octets after the header of an experimenter's id. -/
def decodeExperimenter : Decoder (KindId family) := do
  let number ← Decoder.u32
  let data ← Decoder.remainder
  return .experimenter number data

/-- Reads an id. -/
def decode : Decoder (KindId family) := do
  let h ← Header.expect family.element
  if h.kind = experimenterCode then
    Decoder.atLeast family.element h.code (headerLength + 4) fun _ => decodeExperimenter
  else
    Decoder.fixed family.element h.code headerLength do return .standard h.kind

/-- The code of experimenters belongs to ids with an experimenter. -/
def validate : KindId family → Except Violation Unit
  | standard code =>
    if code = experimenterCode then
      .error (.invalidValue family.label (.reserved experimenterCode.toNat))
    else .ok ()
  | experimenter .. => .ok ()

instance : Entry (KindId family) where
  element := family.element
  decode _ := decode
  encode := encode
  length := length
  validate := validate
  resource := .propertyIds
  same a b := a == b
  validateAll := validateEach validate

end KindId

/-! ## Match fields -/

/-- The id of a match field. -/
inductive OxmId where
  | basic (header : OxmHeader)
  | experimenter (header : OxmHeader) (experimenter : UInt32)
  deriving DecidableEq, Repr

namespace OxmId

/-- The id of a field of the protocol. -/
def ofKind (k : OxmKind) (hasMask : Bool) : OxmId := basic (k.header hasMask)

/-- The header that names the field. -/
def header : OxmId → OxmHeader
  | basic header | experimenter header _ => header

/-- The field of the protocol that is named, if it is one. -/
def kind? : OxmId → Option OxmKind
  | basic header => OxmKind.ofHeader? header
  | experimenter .. => none

/-- How many octets an id has. -/
def length : OxmId → Nat
  | basic _ => 4
  | experimenter .. => 8

/-- The octets of an id. -/
def octets : OxmId → Octets
  | basic header => header.octets
  | experimenter header number => header.octets ++ bigEndian 4 number.toNat

/-- Reads an id: one of the class of experimenters is followed by the experimenter. -/
def decode : Decoder OxmId := do
  Decoder.need .oxmId 4
  let h ← Decoder.ahead OxmHeader.read
  if h.fieldClass = OxmClass.experimenter.toNat then
    Decoder.need .oxmId 8
    Decoder.skip 4
    return experimenter h (← Decoder.u32)
  else
    Decoder.skip 4
    return basic h

instance : Entry OxmId where
  element := .oxmId
  decode _ := decode
  encode id := .ofOctets id.octets
  length := length
  validate _ := .ok ()
  resource := .propertyIds
  same a b := a == b
  validateAll _ := .ok ()

end OxmId

/-! ## Tables -/

/-- The id of a table. -/
structure TableId where
  number : UInt8
  deriving DecidableEq, Repr

instance : Entry TableId where
  element := .tableId
  decode _ := do return ⟨← Decoder.u8⟩
  encode id := .ofOctets [id.number]
  length _ := 1
  validate _ := .ok ()
  resource := .propertyIds
  same a b := a == b
  validateAll _ := .ok ()

end OpenFlow
