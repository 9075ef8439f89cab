import OpenFlow.Instruction.Basic
import OpenFlow.Queue
import OpenFlow.TableFeature.Property
import OpenFlow.Proofs.RecordFormat

set_option autoImplicit false

/-! # The formats of the families

Each family of records follows a format: the decoder that finds the kind of a record, reads it by
its kind and looks at the header a second time for that, does what `RecordFormat.decode` does with
the one header. -/

namespace OpenFlow

/-! ## Actions -/

theorem ActionKind.code_of_ofCode? {code : Nat} {k : ActionKind} (h : ofCode? code = some k) :
    k.code = code :=
  eq_of_beq (List.find?_some (p := fun k : ActionKind => k.code == code) h)

theorem ActionKind.code_injective {k l : ActionKind} (h : k.code = l.code) : k = l := by
  have hk := k.ofCode?_code
  rw [h, l.ofCode?_code] at hk
  exact (Option.some.inj hk).symm

namespace Action

/-- The format of actions. -/
def format : RecordFormat Action where
  element := .action
  framing := .paddingIncluded
  layout? code := (ActionKind.ofCode? code).bind layout?

theorem decode_eq : decode = format.decode := by
  refine RecordFormat.eq_decode (F := format) ?_
  intro h body tail c ho
  cases hkind : ActionKind.ofCode? h.code with
  | none =>
    have hlayout : format.layout? h.code = none := by simp [format, hkind]
    rw [RecordFormat.outcome_of_unknown hlayout]
    exact Header.run_skipUnknown ho
  | some k =>
    have hlayout : format.layout? h.code = layout? k := by simp [format, hkind]
    show (decodeAs k).run c = _
    unfold decodeAs
    cases hk : layout? k with
    | none =>
      rw [RecordFormat.outcome_of_unknown (hlayout.trans hk)]
      exact Header.run_skipUnknown ho
    | some layout =>
      rw [ActionKind.code_of_ofCode? hkind]
      exact RecordFormat.run_element_eq rfl (hlayout.trans hk) ho

end Action

/-! ## Instructions -/

theorem InstructionKind.code_of_ofCode? {code : Nat} {k : InstructionKind}
    (h : ofCode? code = some k) : k.code = code :=
  eq_of_beq (List.find?_some (p := fun k : InstructionKind => k.code == code) h)

theorem InstructionKind.code_injective {k l : InstructionKind} (h : k.code = l.code) : k = l := by
  have hk := k.ofCode?_code
  rw [h, l.ofCode?_code] at hk
  exact (Option.some.inj hk).symm

namespace Instruction

/-- The format of instructions. -/
def format (limits : Limits) : RecordFormat Instruction where
  element := .instruction
  framing := .paddingIncluded
  layout? code := (InstructionKind.ofCode? code).bind (layout? limits)

theorem decode_eq (limits : Limits) : decode limits = (format limits).decode := by
  refine RecordFormat.eq_decode (F := format limits) ?_
  intro h body tail c ho
  cases hkind : InstructionKind.ofCode? h.code with
  | none =>
    have hlayout : (format limits).layout? h.code = none := by simp [format, hkind]
    rw [RecordFormat.outcome_of_unknown hlayout]
    exact Header.run_skipUnknown ho
  | some k =>
    have hlayout : (format limits).layout? h.code = layout? limits k := by simp [format, hkind]
    show (decodeAs limits k).run c = _
    unfold decodeAs
    cases hk : layout? limits k with
    | none =>
      rw [RecordFormat.outcome_of_unknown (hlayout.trans hk)]
      exact Header.run_skipUnknown ho
    | some layout =>
      rw [InstructionKind.code_of_ofCode? hkind]
      exact RecordFormat.run_element_eq rfl (hlayout.trans hk) ho

end Instruction

/-! ## Queue properties -/

theorem QueuePropertyKind.code_of_ofCode? {code : Nat} {k : QueuePropertyKind}
    (h : ofCode? code = some k) : k.code = code :=
  eq_of_beq (List.find?_some (p := fun k : QueuePropertyKind => k.code == code) h)

theorem QueuePropertyKind.code_injective {k l : QueuePropertyKind} (h : k.code = l.code) : k = l := by
  have hk := k.ofCode?_code
  rw [h, l.ofCode?_code] at hk
  exact (Option.some.inj hk).symm

namespace QueueProperty

/-- The format of queue properties. -/
def format : RecordFormat QueueProperty where
  element := .queueProperty
  framing := .paddingIncluded
  layout? code := (QueuePropertyKind.ofCode? code).map layout

theorem decode_eq : decode = format.decode := by
  refine RecordFormat.eq_decode (F := format) ?_
  intro h body tail c ho
  cases hkind : QueuePropertyKind.ofCode? h.code with
  | none =>
    have hlayout : format.layout? h.code = none := by simp [format, hkind]
    rw [RecordFormat.outcome_of_unknown hlayout]
    exact Header.run_skipUnknown ho
  | some k =>
    have hlayout : format.layout? h.code = some (layout k) := by simp [format, hkind]
    show (Decoder.element .queueProperty k.code (layout k)).run c = _
    rw [QueuePropertyKind.code_of_ofCode? hkind]
    exact RecordFormat.run_element_eq rfl hlayout ho

end QueueProperty

/-! ## Table properties -/

theorem TablePropertyKind.code_of_ofCode? {code : Nat} {k : TablePropertyKind}
    (h : ofCode? code = some k) : k.code = code :=
  eq_of_beq (List.find?_some (p := fun k : TablePropertyKind => k.code == code) h)

theorem TablePropertyKind.code_injective {k l : TablePropertyKind} (h : k.code = l.code) : k = l := by
  have hk := k.ofCode?_code
  rw [h, l.ofCode?_code] at hk
  exact (Option.some.inj hk).symm

namespace TableProperty

/-- How properties of a kind are laid out. -/
def layout (limits : Limits) : TablePropertyKind → Layout TableProperty
  | .ids kind => listingIds limits kind
  | .experimenter miss => experimenterLayout miss

/-- The format of table properties. -/
def format (limits : Limits) : RecordFormat TableProperty where
  element := .tableProperty
  framing := .paddingExcluded
  layout? code := (TablePropertyKind.ofCode? code).map (layout limits)

theorem decode_eq (limits : Limits) : decode limits = (format limits).decode := by
  refine RecordFormat.eq_decode (F := format limits) ?_
  intro h body tail c ho
  cases hkind : TablePropertyKind.ofCode? h.code with
  | none =>
    have hlayout : (format limits).layout? h.code = none := by simp [format, hkind]
    rw [RecordFormat.outcome_of_unknown hlayout]
    exact Header.run_skipUnknown ho
  | some k =>
    have hlayout : (format limits).layout? h.code = some (layout limits k) := by
      simp [format, hkind]
    have hpadded : (Decoder.elementPadded .tableProperty h.code (layout limits k)).run c
        = (format limits).outcome h body tail c :=
      RecordFormat.run_elementPadded_eq rfl hlayout ho
    cases k with
    | ids kind =>
      show (Decoder.elementPadded .tableProperty kind.code (listingIds limits kind)).run c = _
      rw [show kind.code = h.code from TablePropertyKind.code_of_ofCode? hkind]
      exact hpadded
    | experimenter miss =>
      -- an experimenter's property looks at its header once more to tell the flavour
      show decodeExperimenter.run c = _
      unfold decodeExperimenter
      rw [Decoder.run_bind_ok (Header.run_expect ho)]
      simp only [hkind]
      exact hpadded

end TableProperty

end OpenFlow
