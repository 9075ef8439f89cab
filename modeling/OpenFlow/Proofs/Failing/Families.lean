import OpenFlow.Match
import OpenFlow.Proofs.Failing.Record
import OpenFlow.Proofs.Recoding.Instruction
import OpenFlow.Proofs.Recoding.Property

set_option autoImplicit false

/-! # No failure is a mistake of the decoder

Whatever the octets and the limits are, no record of any family, no list, set or match of them and
no scan fails because a read ran over the end, because a record turned out to be of another kind
than the one that its header was dispatched on, or with octets to spare after a collection
(`failures_are_regular`). For each kind it is to be seen that the lengths which fit cover all the
reads in its body. -/

namespace OpenFlow

open Decoder

/-! ## Match fields -/

theorem Field.regular_decode : decode.Regular := by
  intro c
  rcases run_decode_cases c with
    ⟨needed, hneeded, hrun⟩ | ⟨h, payload, tail, -, ⟨-, hrun⟩ | ⟨-, hrun | ⟨f, hrun⟩⟩⟩
  · rw [hrun]
    exact hneeded
  · rw [hrun]
    trivial
  · rw [hrun]
    trivial
  · rw [hrun]
    trivial

/-! ## Actions -/

namespace Action

theorem regular_decodeSetField (h : Header) : (decodeSetField h).Regular :=
  Field.regular_decode.bind fun _ => regular_ite (regular_fail_bind (by trivial)) (regular_pure _)

theorem regular_layout {k : ActionKind} {layout : Layout Action}
    (hlayout : layout? k = some layout) : layout.Regular := by
  cases k with
  | output =>
    cases hlayout
    have hbody := hasWidth_u32.bind fun port => hasWidth_u16.map (g := fun n => output port n)
    exact Layout.regular_fixed hbody.regularFrom (by decide)
  | setMplsTtl | setNwTtl =>
    cases hlayout
    exact Layout.regular_fixed hasWidth_u8.map.regularFrom (by decide)
  | pushVlan | pushMpls | popMpls | pushPbb =>
    cases hlayout
    exact Layout.regular_fixed hasWidth_u16.map.regularFrom (by decide)
  | setQueue | group =>
    cases hlayout
    exact Layout.regular_fixed hasWidth_u32.map.regularFrom (by decide)
  | copyTtlOut | copyTtlIn | decMplsTtl | popVlan | decNwTtl | popPbb =>
    cases hlayout
    exact Layout.regular_fixed (hasWidth_pure _).regularFrom (by decide)
  | setField =>
    cases hlayout
    exact Layout.regular_atLeast (fun h => (regular_decodeSetField h).regularFrom 4) (by decide)
  | experimenter => cases hlayout

theorem regular_decode : decode.Regular := by
  rw [decode_eq]
  refine RecordFormat.regular_decode fun code layout hlayout => ?_
  obtain ⟨k, -, hk⟩ := Option.bind_eq_some_iff.1 hlayout
  exact regular_layout hk

theorem sequence_failsRegularly (limits : Limits) : SequenceFailsRegularly Action limits :=
  Sequence.failsRegularly (regular_decode.regularFrom 1) (consumes limits)

end Action

/-! ## Instructions -/

namespace Instruction

variable {limits : Limits}

theorem regular_holdingActions (make : List Action → Instruction) :
    (holdingActions limits make).Regular := by
  have hactions := (Action.sequence_failsRegularly limits).decode.map (g := make)
  refine Layout.regular_atLeast (n := 4 + 0) (fun _ => ?_) (by decide)
  exact (hasWidth_skip 4).regular_bind fun _ => hactions.regularFrom 0

theorem regular_layout {k : InstructionKind} {layout : Layout Instruction}
    (hlayout : layout? limits k = some layout) : layout.Regular := by
  cases k with
  | gotoTable =>
    cases hlayout
    exact Layout.regular_fixed hasWidth_u8.map.regularFrom (by decide)
  | writeMetadata =>
    cases hlayout
    have hbody := (hasWidth_skip 4).bind fun _ => hasWidth_u64.bind fun metadata =>
      hasWidth_u64.map (g := fun mask => writeMetadata metadata mask)
    exact Layout.regular_fixed hbody.regularFrom (by decide)
  | writeActions => exact Option.some.inj hlayout ▸ regular_holdingActions writeActions
  | applyActions => exact Option.some.inj hlayout ▸ regular_holdingActions applyActions
  | clearActions =>
    cases hlayout
    exact Layout.regular_fixed (hasWidth_pure _).regularFrom (by decide)
  | meter =>
    cases hlayout
    exact Layout.regular_fixed hasWidth_u32.map.regularFrom (by decide)
  | experimenter => cases hlayout

theorem regular_decode (limits : Limits) : (decode limits).Regular := by
  rw [decode_eq]
  refine RecordFormat.regular_decode fun code layout hlayout => ?_
  obtain ⟨k, -, hk⟩ := Option.bind_eq_some_iff.1 hlayout
  exact regular_layout hk

end Instruction

/-! ## Queues -/

namespace QueueProperty

theorem regular_holdingRate (make : UInt16 → QueueProperty) : (holdingRate make).Regular := by
  have hbody := (hasWidth_skip 4).bind fun _ => hasWidth_u16.map (g := make)
  exact Layout.regular_fixed hbody.regularFrom (by decide)

theorem regular_decodeExperimenter (h : Header) :
    (decodeExperimenter h).RegularFrom (4 + (4 + (4 + 0))) := by
  refine (hasWidth_skip 4).regular_bind fun _ => hasWidth_u32.regular_bind fun number => ?_
  refine (hasWidth_skip 4).regular_bind fun _ => ?_
  refine (regular_remainder.bind fun data => ?_).regularFrom 0
  split
  · exact regular_pure _
  · exact regular_fail (by trivial)

theorem regular_layout (k : QueuePropertyKind) : (layout k).Regular := by
  cases k with
  | minRate => exact regular_holdingRate minRate
  | maxRate => exact regular_holdingRate maxRate
  | experimenter => exact Layout.regular_atLeast regular_decodeExperimenter (by decide)

theorem regular_decode : decode.Regular := by
  rw [decode_eq]
  refine RecordFormat.regular_decode fun code layout hlayout => ?_
  obtain ⟨k, -, rfl⟩ := Option.map_eq_some_iff.1 hlayout
  exact regular_layout k

theorem sequence_failsRegularly (limits : Limits) : SequenceFailsRegularly QueueProperty limits :=
  Sequence.failsRegularly (regular_decode.regularFrom 1) (consumes limits)

end QueueProperty

theorem PacketQueue.regular_decode (limits : Limits) : (decode limits).Regular := by
  refine regular_measured (by decide) (RegularFrom.weaken (m := 4 + (4 + (8 + 0))) ?_ (by decide))
  refine hasWidth_u32.regular_bind fun queueId => hasWidth_u32.regular_bind fun port => ?_
  refine (hasWidth_skip 8).regular_bind fun _ => ?_
  exact (QueueProperty.sequence_failsRegularly limits).decode.map.regularFrom 0

/-! ## Buckets -/

theorem Bucket.regular_decode (limits : Limits) : (decode limits).Regular := by
  refine regular_measured (by decide)
    (RegularFrom.weaken (m := 2 + (2 + (4 + (4 + (4 + 0))))) ?_ (by decide))
  refine (hasWidth_skip 2).regular_bind fun _ => hasWidth_u16.regular_bind fun weight => ?_
  refine hasWidth_u32.regular_bind fun watchPort => hasWidth_u32.regular_bind fun watchGroup => ?_
  refine (hasWidth_skip 4).regular_bind fun _ => ?_
  exact (Action.sequence_failsRegularly limits).decode.map.regularFrom 0

/-! ## Ids -/

theorem KindId.regular_decode {family : KindFamily} :
    (decode : Decoder (KindId family)).Regular := by
  rw [decode_eq]
  refine RecordFormat.regular_decode fun code layout hlayout => ?_
  have hexperimenter : (decodeExperimenter : Decoder (KindId family)).RegularFrom (4 + 0) :=
    hasWidth_u32.regular_bind fun number => regular_remainder.map.regularFrom 0
  by_cases hcode : UInt16.ofNat code = experimenterCode
  · obtain rfl := Option.some.inj ((if_pos hcode).symm.trans hlayout)
    exact Layout.regular_atLeast (fun _ => hexperimenter) (by decide)
  · obtain rfl := Option.some.inj ((if_neg hcode).symm.trans hlayout)
    exact Layout.regular_fixed (hasWidth_pure _).regularFrom (by decide)

theorem OxmId.regular_decode : decode.Regular := by
  have hread : OxmHeader.read.HasWidth 4 := hasWidth_u32.map
  refine regular_need_bind (hread.regular_ahead_bind (Nat.le_refl 4) fun h => ?_)
  refine regularFrom_ite (fun _ => ?_) fun _ => (hasWidth_skip 4).map.regularFrom
  have hnumber := (hasWidth_skip 4).bind fun _ => hasWidth_u32.map (g := fun n => experimenter h n)
  exact (regular_need_bind hnumber.regularFrom).regularFrom 4

/-- A table id has no header, and is read only where an octet is to come. -/
theorem IdSort.regular_decode (limits : Limits) (s : IdSort) :
    (Record.decode limits : Decoder s.Id).RegularFrom 1 := by
  cases s with
  | instruction => exact KindId.regular_decode.regularFrom 1
  | table => exact hasWidth_u8.map.regularFrom
  | action => exact KindId.regular_decode.regularFrom 1
  | oxm => exact OxmId.regular_decode.regularFrom 1

theorem IdSort.sequence_failsRegularly (limits : Limits) (s : IdSort) :
    SequenceFailsRegularly s.Id limits :=
  Sequence.failsRegularly (s.regular_decode limits) (s.consumes limits)

/-! ## Table properties -/

namespace TableProperty

variable {limits : Limits}

theorem regular_layout (k : TablePropertyKind) : (layout limits k).Regular := by
  cases k with
  | ids k =>
    have hids := (k.sort.sequence_failsRegularly limits).decode.map (g := idList k)
    exact Layout.regular_atLeast (fun _ => hids.regularFrom 0) (by decide)
  | experimenter miss =>
    refine Layout.regular_atLeast (n := 4 + (4 + 0)) (fun _ => ?_) (by decide)
    refine hasWidth_u32.regular_bind fun number => hasWidth_u32.regular_bind fun expType => ?_
    exact regular_remainder.map.regularFrom 0

theorem regular_decode (limits : Limits) : (decode limits).Regular := by
  rw [decode_eq]
  refine RecordFormat.regular_decode fun code layout hlayout => ?_
  obtain ⟨k, -, rfl⟩ := Option.map_eq_some_iff.1 hlayout
  exact regular_layout k

end TableProperty

/-! ## Matches -/

/-- A match is read by no dispatch, so a match of another type may stand in its place. -/
theorem Match.failsOnlyWith (limits : Limits) :
    RecordFailsOnlyWith Match limits (FailsForKind .oxmMatch MatchType.oxm.toNat) := by
  refine .of_decode fun c => ?_
  have hset : (KeyedSet.decode limits : Decoder (KeyedSet Field)).Regular :=
    regular_untilEmpty (by trivial)
      (KeyedSet.regular_decodeEntry (Field.regular_decode.regularFrom 1)) _ _
  have hlayout : (Layout.atLeast headerLength fun _ =>
      (KeyedSet.decode limits : Decoder (KeyedSet Field))).Regular :=
    Layout.regular_atLeast (fun _ => hset.regularFrom 0) (by decide)
  exact failsOnlyWith_map (fails_elementPadded hlayout c) Match.mk

/-! ## Every family -/

/-- Every failure to read, in one way or another, is one that the octets are to blame for. -/
theorem failures_are_regular (limits : Limits) :
    (SequenceFailsRegularly Action limits ∧ SequenceFailsRegularly Instruction limits
        ∧ SequenceFailsRegularly Bucket limits ∧ SequenceFailsRegularly QueueProperty limits
        ∧ SequenceFailsRegularly TableProperty limits ∧ SequenceFailsRegularly Field limits
        ∧ ∀ s : IdSort, SequenceFailsRegularly s.Id limits)
      ∧ (CollectionFailsRegularly (KeyedSet Action) limits
        ∧ CollectionFailsRegularly (KeyedSet Instruction) limits
        ∧ CollectionFailsRegularly (KeyedSet Field) limits)
      ∧ (RecordFailsOnlyWith Action limits DecodeError.Regular
        ∧ RecordFailsOnlyWith Instruction limits DecodeError.Regular
        ∧ RecordFailsOnlyWith Field limits DecodeError.Regular
        ∧ RecordFailsOnlyWith TableProperty limits DecodeError.Regular
        ∧ RecordFailsOnlyWith QueueProperty limits DecodeError.Regular
        ∧ RecordFailsOnlyWith Bucket limits DecodeError.Regular
        ∧ RecordFailsOnlyWith PacketQueue limits DecodeError.Regular
        ∧ RecordFailsOnlyWith Match limits (FailsForKind .oxmMatch MatchType.oxm.toNat))
      ∧ (∀ (e : Element) (framing : Framing), (Header.skipElement e framing).Regular
        ∧ ∀ bs, FailsOnlyWith DecodeError.Regular (Scan.records e framing limits bs))
      ∧ ∀ bs, FailsOnlyWith DecodeError.Regular (Scan.oxmFields limits bs) := by
  have hsequence {α : Type} [Entry α] (hd : (Record.decode limits : Decoder α).Regular) :=
    Sequence.failsRegularly (hd.regularFrom 1)
  have hset {α : Type} [Keyed α] (hd : (Record.decode limits : Decoder α).Regular) :=
    KeyedSet.failsRegularly (hd.regularFrom 1)
  refine ⟨⟨hsequence Action.regular_decode (Action.consumes limits), ?_, ?_, ?_, ?_, ?_, ?_⟩,
    ⟨hset Action.regular_decode (Action.consumes limits), ?_, ?_⟩, ?_, ?_, Scan.fails_oxmFields⟩
  · exact hsequence (Instruction.regular_decode limits) (Instruction.consumes limits)
  · exact hsequence (Bucket.regular_decode limits) (Bucket.consumes limits)
  · exact hsequence QueueProperty.regular_decode (QueueProperty.consumes limits)
  · exact hsequence (TableProperty.regular_decode limits) (TableProperty.consumes limits)
  · exact hsequence Field.regular_decode (Field.consumes limits)
  · exact IdSort.sequence_failsRegularly limits
  · exact hset (Instruction.regular_decode limits) (Instruction.consumes limits)
  · exact hset Field.regular_decode (Field.consumes limits)
  · exact ⟨.of_decode Action.regular_decode, .of_decode (Instruction.regular_decode limits),
      .of_decode Field.regular_decode, .of_decode (TableProperty.regular_decode limits),
      .of_decode QueueProperty.regular_decode, .of_decode (Bucket.regular_decode limits),
      .of_decode (PacketQueue.regular_decode limits), Match.failsOnlyWith limits⟩
  · intro e framing
    exact ⟨Header.regular_skipElement e framing, Scan.fails_records e framing⟩

/-- A match of another type than the one that holds fields. -/
example : (Record.ofOctetsWithin .standard [0, 0, 0, 4, 0, 0, 0, 0] : Except DecodeError Match)
    = .error (.kindMismatch .oxmMatch 1 0) := by
  rfl

end OpenFlow
