import OpenFlow.Proofs.Limits.Collections
import OpenFlow.Proofs.Recoding.Instruction
import OpenFlow.Proofs.Recoding.Property
import OpenFlow.Proofs.RoundTrip.Match
import OpenFlow.Proofs.Skipping.Instruction
import OpenFlow.Proofs.Skipping.Property

set_option autoImplicit false

/-! # Limits only restrict

Whatever is read under limits is read without limits, as the same value and up to the same place;
and of what is read without limits, that is read under limits which they admit
(`limits_only_restrict`). This goes down to the actions that an instruction or a bucket holds and to
the ids of a table property, since the limits are handed down to their decoders. -/

namespace OpenFlow

open Decoder

variable {size : Nat} {low high : Limits}

/-! ## Records that hold no collections -/

namespace Action

theorem restricted : RestrictedByLimits Action :=
  fun _ _ _ _ => restricts_self decode fun _ => List.forall_mem_nil _

/-- Actions are bounded where they stand in a sequence. -/
theorem restricts_list (hlimits : low.LeUpTo size high) :
    Restricts size (Sequence.decode low : Decoder (List Action)) (Sequence.decode high)
      low.Admits :=
  restricted.list consumes size low high hlimits

end Action

theorem QueueProperty.restricted : RestrictedByLimits QueueProperty :=
  fun _ _ _ _ => restricts_self decode fun _ => List.forall_mem_nil _

namespace Field

/-- The length of a field is not written into sixteen bits, and it holds no collection. -/
instance : Composite Field where
  lengthFields _ := []
  collections _ := []

theorem restricted : RestrictedByLimits Field :=
  fun _ _ _ _ => restricts_self decode fun _ => List.forall_mem_nil _

end Field

/-! ## Instructions -/

namespace Instruction

theorem actions_eq_nil {i : Instruction} (h : i.kind.holdsActions = false) : i.actions = [] := by
  cases i with
  | writeActions | applyActions => cases h
  | gotoTable | writeMetadata | clearActions | meter => rfl

/-- Where there are no actions there is nothing to bound. -/
theorem admits_of_kind {limits : Limits} {i : Instruction} (h : i.kind.holdsActions = false) :
    limits.Admits i := by
  show limits.Admits i.actions
  rw [actions_eq_nil h, Limits.admits_iff]
  exact ⟨Nat.zero_le _, List.forall_mem_nil _⟩

theorem restricts_holdingActions (hlimits : low.LeUpTo size high)
    {make : List Action → Instruction} (hmake : ∀ as, (make as).actions = as) :
    (holdingActions low make).Restricts size (holdingActions high make) low.Admits := by
  refine ⟨rfl, fun h => (forward_skip 4).restricts_bind fun _ => ?_⟩
  refine (Action.restricts_list hlimits).map fun as => ?_
  show _ ↔ low.Admits (make as).actions
  rw [hmake]

theorem restricts_layout (hlimits : low.LeUpTo size high) (k : InstructionKind) :
    Option.Rel (fun layout layout' => layout.Restricts size layout' low.Admits)
      (layout? low k) (layout? high k) := by
  have hother {layout : Layout Instruction} (hlayout : layout? low k = some layout)
      (hk : k.holdsActions = false) : layout.Restricts size layout low.Admits :=
    Layout.restricts_self fun h =>
      (recognizes_layout hlayout hk h).weaken fun i hi => admits_of_kind (hi ▸ hk)
  cases k with
  | writeActions => exact .some (restricts_holdingActions hlimits fun _ => rfl)
  | applyActions => exact .some (restricts_holdingActions hlimits fun _ => rfl)
  | gotoTable | writeMetadata | clearActions | meter => exact .some (hother rfl rfl)
  | experimenter => exact .none

theorem restricted : RestrictedByLimits Instruction := by
  intro size low high hlimits
  show Restricts size (decode low) (decode high) low.Admits
  rw [decode_eq, decode_eq]
  refine RecordFormat.restricts_decode ⟨rfl, rfl, fun code => ?_⟩
  show Option.Rel _ ((InstructionKind.ofCode? code).bind (layout? low))
    ((InstructionKind.ofCode? code).bind (layout? high))
  cases InstructionKind.ofCode? code with
  | none => exact .none
  | some k => exact restricts_layout hlimits k

end Instruction

/-! ## Buckets and queues -/

theorem Bucket.restricted : RestrictedByLimits Bucket := by
  intro size low high hlimits
  refine restricts_measured (by decide) ?_
  refine (forward_skip 2).restricts_bind fun _ => forward_u16.restricts_bind fun weight => ?_
  refine forward_u32.restricts_bind fun watchPort => forward_u32.restricts_bind fun watchGroup => ?_
  refine (forward_skip 4).restricts_bind fun _ => ?_
  exact (Action.restricts_list hlimits).map fun _ => Iff.rfl

theorem PacketQueue.restricted : RestrictedByLimits PacketQueue := by
  intro size low high hlimits
  refine restricts_measured (by decide) ?_
  refine forward_u32.restricts_bind fun queueId => forward_u32.restricts_bind fun port => ?_
  refine (forward_skip 8).restricts_bind fun _ => ?_
  exact (QueueProperty.restricted.list QueueProperty.consumes size low high hlimits).map
    fun _ => Iff.rfl

/-! ## Table properties -/

theorem IdSort.resource_eq (s : IdSort) : Entry.resource s.Id = .propertyIds := by
  cases s <;> rfl

theorem IdSort.restricts_decode (s : IdSort) :
    Restricts size (Record.decode low : Decoder s.Id) (Record.decode high) fun _ => True := by
  cases s <;> exact restricts_self _ fun _ => trivial

namespace TableProperty

theorem admits_iff {limits : Limits} {p : TableProperty} :
    limits.Admits p ↔ p.idCount ≤ limits.of .propertyIds :=
  List.forall_mem_singleton

theorem restricts_layout (hlimits : low.LeUpTo size high) (k : TablePropertyKind) :
    (layout low k).Restricts size (layout high k) low.Admits := by
  cases k with
  | ids k =>
    refine ⟨rfl, fun h => ?_⟩
    refine (Sequence.restricts_decode k.sort.restricts_decode k.sort.consumes hlimits).map
      fun ids => ?_
    rw [admits_iff, k.sort.resource_eq]
    exact and_iff_left fun _ _ => trivial
  | experimenter miss =>
    refine Layout.restricts_self fun h => ?_
    refine (recognizes_experimenterLayout miss h).weaken fun p hp => admits_iff.2 ?_
    cases p with
    | idList => cases hp.1
    | experimenter => exact Nat.zero_le _

theorem restricted : RestrictedByLimits TableProperty := by
  intro size low high hlimits
  show Restricts size (decode low) (decode high) low.Admits
  rw [decode_eq, decode_eq]
  refine RecordFormat.restricts_decode ⟨rfl, rfl, fun code => ?_⟩
  show Option.Rel _ ((TablePropertyKind.ofCode? code).map (layout low))
    ((TablePropertyKind.ofCode? code).map (layout high))
  cases TablePropertyKind.ofCode? code with
  | none => exact .none
  | some k => exact .some (restricts_layout hlimits k)

end TableProperty

/-! ## Matches -/

namespace Match

/-- A match holds the collection of its fields. -/
instance : Composite Match where
  lengthFields m := [m.declaredLength]
  collections m := Composite.collections m.fields

theorem restricted : RestrictedByLimits Match := by
  intro size low high hlimits
  have hfields := Field.restricted.set Field.consumes size low high hlimits
  have hlayout : (Layout.atLeast headerLength fun _ => KeyedSet.decode low).Restricts size
      (Layout.atLeast headerLength fun _ => KeyedSet.decode high) low.Admits :=
    ⟨rfl, fun _ => hfields⟩
  exact (restricts_elementPadded hlayout).map fun _ => Iff.rfl

end Match

/-! ## Every family -/

/-- Limits let through what is read without them and they admit, and nothing else. So no success is
    lost, and no value changed, where limits are raised. -/
structure OnlyRestricted (α : Type) [Record α] [Composite α] : Prop where
  run_iff : ∀ (limits : Limits) (c c' : Cursor) (a : α), c.remaining ≤ Limits.unbounded →
    ((Record.decode limits : Decoder α).run c = (.ok a, c') ↔
      (Record.decode .unlimited : Decoder α).run c = (.ok a, c') ∧ limits.Admits a)
  ofOctets_iff : ∀ (limits : Limits) (bs : Octets) (a : α), bs.length ≤ Limits.unbounded →
    (Record.ofOctetsWithin limits bs = .ok a ↔
      Record.ofOctetsWithin .unlimited bs = .ok a ∧ limits.Admits a)
  raise_run : ∀ low high : Limits, (∀ r, low.of r ≤ high.of r) → ∀ (c c' : Cursor) (a : α),
    (Record.decode low : Decoder α).run c = (.ok a, c') →
      (Record.decode high : Decoder α).run c = (.ok a, c')
  raise_ofOctets : ∀ low high : Limits, (∀ r, low.of r ≤ high.of r) → ∀ (bs : Octets) (a : α),
    Record.ofOctetsWithin low bs = .ok a → Record.ofOctetsWithin high bs = .ok a

theorem RestrictedByLimits.only {α : Type} [Record α] [Composite α]
    (h : RestrictedByLimits α) : OnlyRestricted α := by
  have hrun (limits : Limits) := h _ limits .unlimited (Limits.leUpTo_unlimited limits)
  have hraise (low high : Limits) (hle : ∀ r, low.of r ≤ high.of r) (c c' : Cursor) (a : α)
      (hlow : (Record.decode low : Decoder α).run c = (.ok a, c')) :
      (Record.decode high : Decoder α).run c = (.ok a, c') :=
    ((h c.remaining low high (Limits.leUpTo_of_le hle _) c c' a (Nat.le_refl _)).1 hlow).1
  refine ⟨hrun, ?_, hraise, ?_⟩
  · intro limits bs a hsize
    rw [Record.ofOctetsWithin_eq_ok_iff, Record.ofOctetsWithin_eq_ok_iff]
    constructor
    · rintro ⟨c, hlow, hend⟩
      obtain ⟨hhigh, hadmits⟩ := (hrun limits (.start bs) c a hsize).1 hlow
      exact ⟨⟨c, hhigh, hend⟩, hadmits⟩
    · rintro ⟨⟨c, hhigh, hend⟩, hadmits⟩
      exact ⟨c, (hrun limits (.start bs) c a hsize).2 ⟨hhigh, hadmits⟩, hend⟩
  · intro low high hle bs a hlow
    obtain ⟨c, hrun', hend⟩ := Record.ofOctetsWithin_eq_ok_iff.1 hlow
    exact Record.ofOctetsWithin_eq_ok_iff.2 ⟨c, hraise low high hle _ c a hrun', hend⟩

/-- Limits only restrict what is read as a list, as a queue, as a set or as a match. -/
theorem limits_only_restrict :
    OnlyRestricted (List Action) ∧ OnlyRestricted (List Instruction) ∧ OnlyRestricted (List Bucket)
      ∧ OnlyRestricted (List TableProperty) ∧ OnlyRestricted (List QueueProperty)
      ∧ OnlyRestricted PacketQueue ∧ OnlyRestricted (KeyedSet Action)
      ∧ OnlyRestricted (KeyedSet Instruction) ∧ OnlyRestricted Match := by
  refine ⟨?_, ?_, ?_, ?_, ?_, PacketQueue.restricted.only, ?_, ?_, Match.restricted.only⟩
  · exact (Action.restricted.list Action.consumes).only
  · exact (Instruction.restricted.list Instruction.consumes).only
  · exact (Bucket.restricted.list Bucket.consumes).only
  · exact (TableProperty.restricted.list TableProperty.consumes).only
  · exact (QueueProperty.restricted.list QueueProperty.consumes).only
  · exact (Action.restricted.set Action.consumes).only
  · exact (Instruction.restricted.set Instruction.consumes).only

/-- Two actions in an instruction are read under a limit of two, but not of one. -/
example :
    let bs : Octets := [0, 4, 0, 24, 0, 0, 0, 0, 0, 11, 0, 8, 0, 0, 0, 0, 0, 12, 0, 8, 0, 0, 0, 0]
    let read (limit : Nat) : Except DecodeError (List Instruction) :=
      Record.ofOctetsWithin (Limits.standard.set .actions limit) bs
    read 2 = .ok [.applyActions [.copyTtlOut, .copyTtlIn]]
      ∧ read 1 = .error (.limitExceeded .actions 2 1) := by
  decide +kernel

end OpenFlow
