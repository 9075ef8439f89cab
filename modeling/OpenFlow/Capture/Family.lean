import OpenFlow.Match
import OpenFlow.Instruction.Basic
import OpenFlow.Queue
import OpenFlow.TableFeature.Property

set_option autoImplicit false

/-! # What captures hold

A capture is a run of octets taken from a connection: records of one family up to its end, or one
match. Which family it is has to be told; the octets do not say. -/

namespace OpenFlow

/-- What a capture holds. -/
inductive CaptureFamily where
  | actions | instructions | matchFields | tableProperties | queueProperties
  deriving DecidableEq, Repr

namespace CaptureFamily

/-- All families. -/
def all : List CaptureFamily :=
  [.actions, .instructions, .matchFields, .tableProperties, .queueProperties]

/-- The name of a family, by which it is also asked for. -/
def name : CaptureFamily → String
  | .actions => "actions"
  | .instructions => "instructions"
  | .matchFields => "match"
  | .tableProperties => "table-properties"
  | .queueProperties => "queue-properties"

/-- The family of a name. -/
def ofName? (name : String) : Option CaptureFamily := all.find? (·.name == name)

/-- What is decoded from a capture of a family. -/
def contents : CaptureFamily → String
  | .actions => "actions"
  | .instructions => "instructions"
  | .matchFields => "match"
  | .tableProperties => "table feature properties"
  | .queueProperties => "queue properties"

/-- The structure that a capture of a family is made of. -/
def element : CaptureFamily → Element
  | .actions => .action
  | .instructions => .instruction
  | .matchFields => .oxmMatch
  | .tableProperties => .tableProperty
  | .queueProperties => .queueProperty

/-- Whether the lengths of a family cover the padding. -/
def framing : CaptureFamily → Framing
  | .actions | .instructions | .queueProperties => .paddingIncluded
  | .matchFields | .tableProperties => .paddingExcluded

/-- The name of the kind that a code announces in a family; matches are of no kind. -/
def kindName? : CaptureFamily → Nat → Option String
  | .actions, code => (ActionKind.ofCode? code).map ActionKind.name
  | .instructions, code => (InstructionKind.ofCode? code).map InstructionKind.name
  | .matchFields, _ => none
  | .tableProperties, code => (TablePropertyKind.ofCode? code).map TablePropertyKind.name
  | .queueProperties, code => (QueuePropertyKind.ofCode? code).map QueuePropertyKind.name

end CaptureFamily

end OpenFlow
