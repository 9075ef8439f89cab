import OpenFlow.Proofs.Skipping.Instruction
import OpenFlow.Proofs.Skipping.Property

set_option autoImplicit false

/-! # When only unknown records are stepped over

`Sequence.decodeKnown` steps over a record whenever reading it fails for an unknown kind, without a
look at what was unknown. For queue and table properties that is always the record itself. Not so
for actions and instructions: one that has a decoder is lost whole if it holds something that has
none, and the code that is reported for it is that of another family. -/

namespace OpenFlow

/-- Which records a sequence holds. -/
inductive RecordSort where
  | action | instruction | queueProperty | tableProperty
  deriving DecidableEq, Repr

namespace RecordSort

/-- The decoded records of a sort. -/
def Decoded : RecordSort → Type
  | .action => Action
  | .instruction => Instruction
  | .queueProperty => QueueProperty
  | .tableProperty => TableProperty

instance (s : RecordSort) : Entry s.Decoded :=
  match s with
  | .action => inferInstanceAs (Entry Action)
  | .instruction => inferInstanceAs (Entry Instruction)
  | .queueProperty => inferInstanceAs (Entry QueueProperty)
  | .tableProperty => inferInstanceAs (Entry TableProperty)

instance (s : RecordSort) : Kinded s.Decoded :=
  match s with
  | .action => inferInstanceAs (Kinded Action)
  | .instruction => inferInstanceAs (Kinded Instruction)
  | .queueProperty => inferInstanceAs (Kinded QueueProperty)
  | .tableProperty => inferInstanceAs (Kinded TableProperty)

/-- The code of the kind of a decoded record. -/
def code {s : RecordSort} (a : s.Decoded) : Nat := Kinded.code (Kinded.kind a)

/-- What can be told of the records of a sort without decoding them. -/
def family : RecordSort → RecordFamily
  | .action => Action.family
  | .instruction => Instruction.family
  | .queueProperty => QueueProperty.family
  | .tableProperty => TableProperty.family

/-- How the records of a sort are read. -/
def format (limits : Limits) : (s : RecordSort) → RecordFormat s.Decoded
  | .action => Action.format
  | .instruction => Instruction.format limits
  | .queueProperty => QueueProperty.format
  | .tableProperty => TableProperty.format limits

theorem decode_eq (limits : Limits) (s : RecordSort) :
    (Record.decode limits : Decoder s.Decoded) = (s.format limits).decode := by
  cases s with
  | action => exact Action.decode_eq
  | instruction => exact Instruction.decode_eq limits
  | queueProperty => exact QueueProperty.decode_eq
  | tableProperty => exact TableProperty.decode_eq limits

theorem describes_family (limits : Limits) (s : RecordSort) :
    (s.format limits).Describes s.family code := by
  cases s with
  | action => exact Action.describes_family
  | instruction => exact Instruction.describes_family limits
  | queueProperty => exact QueueProperty.describes_family
  | tableProperty => exact TableProperty.describes_family limits

/-- Stepping over unknown records leaves out those that have no decoder and those that hold
    something that has none. Only the former are left out exactly if there is none of the latter. No
    machine has a larger buffer than `Limits.unbounded` octets. -/
theorem onlyUnknownSkipped_decodeKnown_iff (s : RecordSort) (limits : Limits) (bs : Octets)
    (as : List s.Decoded) (skipped : List Nat) (c : Cursor) (hbs : bs.length ≤ Limits.unbounded)
    (hrun : (Sequence.decodeKnown limits).run (.start bs) = (.ok (as, skipped), c)) :
    ∃ rs, s.family.records bs = .ok rs
      ∧ s.family.Explains rs (as.map code) skipped
      ∧ (s.family.OnlyUnknownSkipped rs (as.map code) skipped
        ↔ ∀ r ∈ rs, s.family.knows r.header.code = true → s.family.unknownInside? r = none) := by
  unfold Sequence.decodeKnown at hrun
  rw [decode_eq] at hrun
  obtain ⟨rs, hrecords, hexplains⟩ := (describes_family limits s).explains_manyKnown hbs hrun
  exact ⟨rs, hrecords, hexplains, hexplains.onlyUnknownSkipped_iff⟩

/-- Four instructions: one of an experimenter, one that is read, one that applies two actions, the
    second of which sets a field that is not of the protocol, and one of an unknown kind. -/
def mixedInstructions : Octets :=
  [0xff, 0xff, 0x00, 0x08, 0x00, 0x00, 0x00, 0x01,
    0x00, 0x01, 0x00, 0x08, 0x05, 0x00, 0x00, 0x00,
    0x00, 0x04, 0x00, 0x20, 0x00, 0x00, 0x00, 0x00,
    0x00, 0x0b, 0x00, 0x08, 0x00, 0x00, 0x00, 0x00,
    0x00, 0x19, 0x00, 0x10, 0x80, 0x00, 0xfe, 0x04, 0x01, 0x02, 0x03, 0x04, 0x00, 0x00, 0x00, 0x00,
    0x00, 0x09, 0x00, 0x08, 0x00, 0x00, 0x00, 0x00]

/-- The type of the field stands among the codes of instructions. -/
theorem onlyUnknownSkipped_mixedInstructions_iff :
    mixedInstructions.length ≤ Limits.unbounded
    ∧ (Sequence.decodeKnown .standard : Decoder (List Instruction × List Nat)).run
        (.start mixedInstructions)
      = (.ok ([.gotoTable 5], [0xffff, 0x40007f, 9]), ⟨56, []⟩)
    ∧ ∃ rs, instruction.family.records mixedInstructions = .ok rs
      ∧ instruction.family.Explains rs [1] [0xffff, 0x40007f, 9]
      ∧ (instruction.family.OnlyUnknownSkipped rs [1] [0xffff, 0x40007f, 9]
        ↔ ∀ r ∈ rs, instruction.family.knows r.header.code = true →
          instruction.family.unknownInside? r = none) :=
  ⟨by decide, rfl, onlyUnknownSkipped_decodeKnown_iff .instruction .standard mixedInstructions
    [.gotoTable 5] [0xffff, 0x40007f, 9] ⟨56, []⟩ (by decide) rfl⟩

/-- An instruction that applies one action of an unknown kind. -/
def lostInstruction : Octets :=
  [0x00, 0x04, 0x00, 0x10, 0x00, 0x00, 0x00, 0x00, 0x00, 0x01, 0x00, 0x08, 0x00, 0x00, 0x00, 0x00]

/-- The instruction has a decoder and is left out, and the code of its action is reported as if it
    were the code of an instruction. -/
theorem not_onlyUnknownSkipped_lostInstruction :
    (Sequence.decodeKnown .standard : Decoder (List Instruction × List Nat)).run
        (.start lostInstruction) = (.ok ([], [1]), ⟨16, []⟩)
    ∧ ∃ rs, instruction.family.records lostInstruction = .ok rs
      ∧ ¬ instruction.family.OnlyUnknownSkipped rs [] [1] := by
  refine ⟨rfl, [⟨⟨4, 16⟩, lostInstruction.drop 4, 16⟩], rfl, ?_⟩
  intro honly
  have hcodes : ([] : List Nat) = [4] := honly.codes_eq
  simp at hcodes

end RecordSort

end OpenFlow
