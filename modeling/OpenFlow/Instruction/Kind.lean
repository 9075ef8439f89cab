set_option autoImplicit false

/-! # Kinds of instructions -/

namespace OpenFlow

/-- A kind of instruction. -/
inductive InstructionKind where
  | gotoTable | writeMetadata | writeActions | applyActions | clearActions | meter | experimenter
  deriving DecidableEq, Repr

namespace InstructionKind

/-- All kinds, in the order of their codes. -/
def all : List InstructionKind :=
  [.gotoTable, .writeMetadata, .writeActions, .applyActions, .clearActions, .meter, .experimenter]

/-- The code that announces a kind. -/
def code : InstructionKind → Nat
  | .gotoTable => 1
  | .writeMetadata => 2
  | .writeActions => 3
  | .applyActions => 4
  | .clearActions => 5
  | .meter => 6
  | .experimenter => 0xffff

/-- The protocol's name of a kind. -/
def name : InstructionKind → String
  | .gotoTable => "goto_table"
  | .writeMetadata => "write_metadata"
  | .writeActions => "write_actions"
  | .applyActions => "apply_actions"
  | .clearActions => "clear_actions"
  | .meter => "meter"
  | .experimenter => "experimenter"

/-- The kind that a code announces. -/
def ofCode? (code : Nat) : Option InstructionKind := all.find? (·.code == code)

/-- The kind of a name. -/
def ofName? (name : String) : Option InstructionKind := all.find? (·.name == name)

/-- When instructions of a set are carried out: the lower, the earlier. Instructions of
    experimenters come last. -/
def priority : InstructionKind → Nat
  | .meter => 0x100
  | .applyActions | .clearActions => 0x200
  | .writeActions => 0x300
  | .writeMetadata => 0x400
  | .gotoTable => 0x500
  | .experimenter => 0x600

theorem ofCode?_code (k : InstructionKind) : ofCode? k.code = some k := by
  cases k <;> rfl

end InstructionKind

end OpenFlow
