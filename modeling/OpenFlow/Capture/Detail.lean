import OpenFlow.Instruction.Basic
import OpenFlow.Queue
import OpenFlow.TableFeature.Property
import OpenFlow.Text.Address
import OpenFlow.Text.Term

set_option autoImplicit false

/-! # Records in full

A record is shown as a term with all that it holds: its kind as a constructor, applied to its parts
by name. Numbers are decimal, octets are lists of numbers, and addresses of the Internet are
written as such. -/

namespace OpenFlow

open Text (applied structured bracketed constructorName)

/-- Octets as a list of numbers. -/
def octetsDetail (bs : Octets) : String := bracketed (bs.map fun b => toString b.toNat)

/-- A list of records. -/
def listDetail (entries : List String) : String :=
  structured "TlvList" [("entries", bracketed entries)]

/-- The value of a match field. -/
def Value.detail {s : Shape} (v : Value s) : String :=
  match s with
  | .u8 | .u16 | .u32 | .u64 => toString v.toNat
  | .u24 => applied "U24" [toString v.toNat]
  | .mac => applied "MacAddr" [octetsDetail v.octets]
  | .ipv4 => Text.ipv4Text v.octets
  | .ipv6 => Text.ipv6Text v.octets

/-- A match field. -/
def Field.detail (f : Field) : String :=
  let mask := f.mask.toList.map fun mask => ("mask", mask.detail)
  applied (constructorName f.kind.name) [structured f.kind.name (("value", f.value.detail) :: mask)]

/-- The parts of an action. -/
def Action.parts : Action → List (String × String)
  | .output port maxLength => [("port", toString port), ("max_len", toString maxLength)]
  | .setMplsTtl ttl | .setNwTtl ttl => [("ttl", toString ttl)]
  | .pushVlan ethertype | .pushMpls ethertype | .popMpls ethertype | .pushPbb ethertype =>
    [("ethertype", toString ethertype)]
  | .setQueue queueId => [("queue_id", toString queueId)]
  | .group groupId => [("group_id", toString groupId)]
  | .setField field => [("field", field.detail)]
  | .copyTtlOut | .copyTtlIn | .decMplsTtl | .popVlan | .decNwTtl | .popPbb => []

/-- An action. -/
def Action.detail (a : Action) : String :=
  let name := constructorName a.kind.name
  applied name [structured name a.parts]

/-- The parts of an instruction. -/
def Instruction.parts : Instruction → List (String × String)
  | .gotoTable tableId => [("table_id", toString tableId)]
  | .writeMetadata metadata mask => [("metadata", toString metadata), ("mask", toString mask)]
  | .writeActions actions | .applyActions actions =>
    [("actions", listDetail (actions.map Action.detail))]
  | .clearActions => []
  | .meter meterId => [("meter_id", toString meterId)]

/-- An instruction. -/
def Instruction.detail (i : Instruction) : String :=
  let name := constructorName i.kind.name
  applied name [structured name i.parts]

/-- The id of a kind of action or instruction. -/
def KindId.detail {family : KindFamily} : KindId family → String
  | .standard code => applied "Standard" [toString code]
  | .experimenter number data =>
    structured "Experimenter" [("experimenter", toString number), ("data", octetsDetail data)]

/-- The header of a match field. -/
def OxmHeader.detail (h : OxmHeader) : String := applied "OxmHeader" [toString h.raw]

/-- The id of a match field. -/
def OxmId.detail : OxmId → String
  | .basic header => applied "Basic" [header.detail]
  | .experimenter header number =>
    structured "Experimenter" [("header", header.detail), ("experimenter", toString number)]

/-- The id of a table. -/
def TableId.detail (id : TableId) : String := applied "TableId" [toString id.number]

/-- An id of a sort. -/
def IdSort.detail : (s : IdSort) → s.Id → String
  | .instruction => fun (id : InstructionId) => id.detail
  | .table => fun (id : TableId) => id.detail
  | .action => fun (id : ActionId) => id.detail
  | .oxm => fun (id : OxmId) => id.detail

/-- A property of a table. -/
def TableProperty.detail : TableProperty → String
  | .idList kind ids =>
    let name := constructorName kind.name
    applied name [structured "IdListProperty"
      [("type", name), ("ids", listDetail (ids.map kind.sort.detail))]]
  | .experimenter miss number expType data =>
    applied "Experimenter"
      [structured "ExperimenterProperty" [("miss", toString miss),
        ("experimenter", toString number), ("exp_type", toString expType),
        ("data", octetsDetail data)]]

/-- A property of a queue. -/
def QueueProperty.detail (p : QueueProperty) : String :=
  let name := constructorName p.kind.name
  match p with
  | .minRate rate | .maxRate rate => applied name [structured name [("rate", toString rate)]]
  | .experimenter number data =>
    applied name [structured "QueueExperimenter"
      [("experimenter", toString number), ("data", octetsDetail data.octets)]]

end OpenFlow
