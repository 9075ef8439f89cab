set_option autoImplicit false

/-! # The elements of a message

The nouns of the wire format: what a decoder was reading when it stopped, what a limit counts, and
which of the keyed collections an entry was looked up in. Error messages name them by `label`. -/

namespace OpenFlow

/-- A kind of structure found on the wire. -/
inductive Element where
  | oxmField | oxmMatch | action | instruction | tableProperty | queueProperty
  | actionId | instructionId | oxmId | tableId | bucket | packetQueue
  deriving DecidableEq, Repr

/-- The name of an element in messages. -/
def Element.label : Element → String
  | .oxmField => "oxm field"
  | .oxmMatch => "match"
  | .action => "action"
  | .instruction => "instruction"
  | .tableProperty => "table feature property"
  | .queueProperty => "queue property"
  | .actionId => "action id"
  | .instructionId => "instruction id"
  | .oxmId => "oxm id"
  | .tableId => "table id"
  | .bucket => "bucket"
  | .packetQueue => "packet queue"

/-- A quantity that a limit bounds. -/
inductive Resource where
  | bufferOctets | records
  | actions | instructions | oxmFields | propertyIds | properties | buckets
  deriving DecidableEq, Repr

/-- The name of a bounded quantity in messages. -/
def Resource.label : Resource → String
  | .bufferOctets => "buffer bytes"
  | .records => "record count"
  | .actions => "actions"
  | .instructions => "instructions"
  | .oxmFields => "oxm fields"
  | .propertyIds => "property ids"
  | .properties => "properties"
  | .buckets => "buckets"

/-- A collection whose entries are found by key. -/
inductive Container where
  | actionSet | instructionSet | oxmFieldSet
  deriving DecidableEq, Repr

/-- The name of a keyed collection in messages. -/
def Container.label : Container → String
  | .actionSet => "action set"
  | .instructionSet => "instruction set"
  | .oxmFieldSet => "oxm field set"

end OpenFlow
