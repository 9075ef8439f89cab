import OpenFlow.TableFeature.Id

set_option autoImplicit false

/-! # Features of a table

A property tells one thing that a table can do: a list of ids, or something of an experimenter's.
Most come in two flavours, one for regular flow entries and one for the entry of packets that miss
them all. The length of a property does not cover the padding after it. -/

namespace OpenFlow

/-! ## Kinds -/

/-- Which ids a list holds. -/
inductive IdSort where
  | instruction | table | action | oxm
  deriving DecidableEq, Repr

/-- The ids of a sort. -/
def IdSort.Id : IdSort → Type
  | .instruction => InstructionId
  | .table => TableId
  | .action => ActionId
  | .oxm => OxmId

instance (s : IdSort) : DecidableEq s.Id :=
  match s with
  | .instruction => inferInstanceAs (DecidableEq InstructionId)
  | .table => inferInstanceAs (DecidableEq TableId)
  | .action => inferInstanceAs (DecidableEq ActionId)
  | .oxm => inferInstanceAs (DecidableEq OxmId)

instance (s : IdSort) : Entry s.Id :=
  match s with
  | .instruction => inferInstanceAs (Entry InstructionId)
  | .table => inferInstanceAs (Entry TableId)
  | .action => inferInstanceAs (Entry ActionId)
  | .oxm => inferInstanceAs (Entry OxmId)

/-- A kind of property that is a list of ids. -/
inductive IdListKind where
  | instructions | instructionsMiss | nextTables | nextTablesMiss
  | writeActions | writeActionsMiss | applyActions | applyActionsMiss
  | matching | wildcards
  | writeSetField | writeSetFieldMiss | applySetField | applySetFieldMiss
  deriving DecidableEq, Repr

namespace IdListKind

/-- All kinds, in the order of their codes. -/
def all : List IdListKind :=
  [.instructions, .instructionsMiss, .nextTables, .nextTablesMiss, .writeActions,
    .writeActionsMiss, .applyActions, .applyActionsMiss, .matching, .wildcards, .writeSetField,
    .writeSetFieldMiss, .applySetField, .applySetFieldMiss]

/-- The code that announces a kind. -/
def code : IdListKind → Nat
  | .instructions => 0
  | .instructionsMiss => 1
  | .nextTables => 2
  | .nextTablesMiss => 3
  | .writeActions => 4
  | .writeActionsMiss => 5
  | .applyActions => 6
  | .applyActionsMiss => 7
  | .matching => 8
  | .wildcards => 10
  | .writeSetField => 12
  | .writeSetFieldMiss => 13
  | .applySetField => 14
  | .applySetFieldMiss => 15

/-- The protocol's name of a kind. -/
def name : IdListKind → String
  | .instructions => "instructions"
  | .instructionsMiss => "instructions_miss"
  | .nextTables => "next_tables"
  | .nextTablesMiss => "next_tables_miss"
  | .writeActions => "write_actions"
  | .writeActionsMiss => "write_actions_miss"
  | .applyActions => "apply_actions"
  | .applyActionsMiss => "apply_actions_miss"
  | .matching => "match"
  | .wildcards => "wildcards"
  | .writeSetField => "write_setfield"
  | .writeSetFieldMiss => "write_setfield_miss"
  | .applySetField => "apply_setfield"
  | .applySetFieldMiss => "apply_setfield_miss"

/-- Which ids a list of a kind holds. -/
def sort : IdListKind → IdSort
  | .instructions | .instructionsMiss => .instruction
  | .nextTables | .nextTablesMiss => .table
  | .writeActions | .writeActionsMiss | .applyActions | .applyActionsMiss => .action
  | .matching | .wildcards | .writeSetField | .writeSetFieldMiss | .applySetField
  | .applySetFieldMiss => .oxm

end IdListKind

/-- A kind of property. -/
inductive TablePropertyKind where
  | ids (kind : IdListKind)
  | experimenter (miss : Bool)
  deriving DecidableEq, Repr

namespace TablePropertyKind

/-- All kinds, in the order of their codes. -/
def all : List TablePropertyKind :=
  IdListKind.all.map ids ++ [.experimenter false, .experimenter true]

/-- The code that announces a kind. -/
def code : TablePropertyKind → Nat
  | ids kind => kind.code
  | experimenter false => 0xfffe
  | experimenter true => 0xffff

/-- The protocol's name of a kind. -/
def name : TablePropertyKind → String
  | ids kind => kind.name
  | experimenter false => "experimenter"
  | experimenter true => "experimenter_miss"

/-- The kind that a code announces. -/
def ofCode? (code : Nat) : Option TablePropertyKind := all.find? (·.code == code)

/-- The kind of a name. -/
def ofName? (name : String) : Option TablePropertyKind := all.find? (·.name == name)

/-- The two kinds have one layout: they are equal, or both an experimenter's. -/
def sameLayout : TablePropertyKind → TablePropertyKind → Bool
  | ids k, ids l => k == l
  | experimenter _, experimenter _ => true
  | _, _ => false

theorem ofCode?_code (k : TablePropertyKind) : ofCode? k.code = some k := by
  rcases k with k | miss
  · cases k <;> rfl
  · cases miss <;> rfl

end TablePropertyKind

/-! ## Properties -/

/-- A property of a table. -/
inductive TableProperty where
  | idList (kind : IdListKind) (ids : List kind.sort.Id)
  | experimenter (miss : Bool) (experimenter expType : UInt32) (data : Octets)
  deriving DecidableEq

namespace TableProperty

/-- The kind of a property. -/
def kind : TableProperty → TablePropertyKind
  | idList kind _ => .ids kind
  | experimenter miss .. => .experimenter miss

/-- The length that the header declares: the padding is not counted. -/
def declaredLength : TableProperty → Nat
  | idList _ ids => headerLength + Sequence.length ids
  | experimenter _ _ _ data => headerLength + 8 + data.length

/-- How many octets a property occupies. -/
def length (p : TableProperty) : Nat := padded p.declaredLength

/-- The octets after the header, without the padding. -/
def body : TableProperty → Encoding
  | idList _ ids => Sequence.encode ids
  | experimenter _ number expType data =>
    .ofOctets (bigEndian 4 number.toNat ++ bigEndian 4 expType.toNat ++ data)

/-- Writes a property. -/
def encode (p : TableProperty) : Encoding :=
  .header .tableProperty p.kind.code p.declaredLength ++ p.body
    ++ .ofOctets (padding p.declaredLength)

/-- The layout of properties that list ids of one kind. -/
def listingIds (limits : Limits) (k : IdListKind) : Layout TableProperty :=
  .atLeast headerLength fun _ => do return idList k (← Sequence.decode limits)

/-- The layout of experimenters' properties of one flavour. -/
def experimenterLayout (miss : Bool) : Layout TableProperty :=
  .atLeast (headerLength + 8) fun _ => do
    let number ← Decoder.u32
    let expType ← Decoder.u32
    let data ← Decoder.remainder
    return experimenter miss number expType data

/-- Reads an experimenter's property of either flavour. -/
def decodeExperimenter : Decoder TableProperty := do
  let h ← Header.expect .tableProperty
  match TablePropertyKind.ofCode? h.code with
  | some (.experimenter miss) =>
    Decoder.elementPadded .tableProperty h.code (experimenterLayout miss)
  | _ =>
    Decoder.fail
      (.kindMismatch .tableProperty (TablePropertyKind.experimenter false).code h.code)

/-- Reads a property of one layout: of one kind, or of an experimenter. -/
def decodeAs (limits : Limits) : TablePropertyKind → Decoder TableProperty
  | .ids k => Decoder.elementPadded .tableProperty k.code (listingIds limits k)
  | .experimenter _ => decodeExperimenter

/-- Reads a property; one of an unknown kind is stepped over with its padding. -/
def decode (limits : Limits) : Decoder TableProperty := do
  let h ← Header.expect .tableProperty
  match TablePropertyKind.ofCode? h.code with
  | some k => decodeAs limits k
  | none => Header.skipUnknown .tableProperty .paddingExcluded

/-- Checks the ids. -/
def validate : TableProperty → Except Violation Unit
  | idList _ ids => Entry.validateAll ids
  | experimenter .. => .ok ()

instance : Entry TableProperty where
  element := .tableProperty
  decode := decode
  encode := encode
  length := length
  validate := validate
  resource := .properties
  same p q := p == q
  validateAll := validateEach validate

instance : Kinded TableProperty where
  Kind := TablePropertyKind
  kinds := TablePropertyKind.all
  code := TablePropertyKind.code
  name := TablePropertyKind.name
  kind := kind
  decodeAs := decodeAs
  alike := TablePropertyKind.sameLayout

end TableProperty

end OpenFlow
