import OpenFlow.Proofs.Recoding.Instruction
import OpenFlow.Proofs.Recoding.Property
import OpenFlow.Proofs.Scanning.Grammar
import OpenFlow.Proofs.Skipping.Instruction
import OpenFlow.Proofs.Skipping.Property
import OpenFlow.Proofs.Writing.Exact

set_option autoImplicit false

/-! # Scans find what is read

A scan goes by headers alone, whereas the decoders of records make sizes of what they have read. On
octets that are read as records the two agree (`scans_agree_with_reading`): every length that a
decoder accepts is the one that the value would be written with, and every kind code is the one
that the value would be written under, so the header that a scan finds is the header of the
value. -/

namespace OpenFlow

open Decoder Template

variable {α : Type}

/-! ## One record -/

/-- A record that a scan finds agrees with a value on the kind and on the lengths; `declared` is the
    length that the header of the value tells. -/
structure RawRecord.Frames [Record α] [Kinded α] (declared : α → Nat) (r : RawRecord) (a : α) :
    Prop where
  code_eq : r.header.code = Kinded.code (Kinded.kind a)
  size_eq : r.header.size = declared a
  stride_eq : r.stride = Record.length a

/-- A match field that a scan finds agrees with a field on the header and on the octets. -/
structure RawField.Frames (r : RawField) (f : Field) : Prop where
  header_eq : r.header = f.header
  oxmType_eq : r.header.oxmType = f.kind.oxmType
  octets_eq : r.octets = f.octets
  stride_eq : r.stride = f.length

theorem WrittenByLength.declared_le [Record α] [Announcing α] {declared : α → Nat}
    (h : WrittenByLength α declared) {a : α} {bs : Octets} (hwrites : (Record.encode a).Writes bs) :
    declared a ≤ 0xffff := by
  refine Decidable.byContradiction fun hlong => ?_
  have herror := h.outcome a .empty
  rw [show Record.encode a = .ofOctets bs from hwrites, if_neg hlong] at herror
  cases herror

/-- A scan goes along with the decoder of a record: where a value is read it finds a record that
    agrees with the value, where something is stepped over for an unknown kind it finds a record as
    well, and it goes on at the same place. -/
structure ScansAlong (α : Type) [Record α] [Kinded α] (e : Element) (framing : Framing)
    (declared : α → Nat) (limits : Limits) : Prop where
  read : ∀ {c c' : Cursor} {a : α}, (Record.decode limits).run c = (.ok a, c') →
    ∃ r, (RawRecord.decode e framing).run c = (.ok r, c') ∧ r.Frames declared a
  steppedOver : ∀ {c c' : Cursor} {error : DecodeError} {n : Nat},
    (Record.decode limits : Decoder α).run c = (.error error, c') → error.unknownCode? = some n →
      ∃ r, (RawRecord.decode e framing).run c = (.ok r, c')

theorem RecordFormat.Describes.scansAlong [Record α] [Kinded α] [Announcing α] {limits : Limits}
    {F : RecordFormat α} {G : RecordFamily} {declared : α → Nat} {body : α → Template}
    (hF : F.Describes G fun a => Kinded.code (Kinded.kind a))
    (hdecode : (Record.decode limits : Decoder α) = F.decode)
    (hfollows : (Record.decode limits : Decoder α).Follows anywhere (Drawn fun a =>
      G.framing.template (Kinded.code (Kinded.kind a)) (declared a) (body a)))
    (hwritten : WrittenByLength α declared) (hcode : ∀ k : Kinded.Kind α, Kinded.code k < 65536)
    (hlength : ∀ a : α, Record.length a = G.framing.stride (declared a)) :
    ScansAlong α G.element G.framing declared limits where
  read := by
    intro c c' a hrun
    obtain ⟨r, hraw, -, -⟩ := hF.run_decode_ok (hdecode ▸ hrun)
    obtain ⟨chunk, hspans, hchunk⟩ := RawRecord.exists_spans_of_run hraw
    obtain ⟨pad, rfl⟩ := hspans.exists_padding
    obtain ⟨t, bs, ⟨rfl, hwrites⟩, hbs, hrest, -, -⟩ := hfollows c c' a hrun
    -- the octets begin with the header of the record, and with that of the value
    have hlt : declared a < 65536 := Nat.lt_succ_of_le (hwritten.declared_le hwrites)
    obtain ⟨header, rest, rfl, hheader, -⟩ := fits_append_iff.1 hbs
    rw [fits_exact_iff, ← Header.octets_ofNats (hcode _) hlt] at hheader
    rw [hchunk, hheader, List.append_assoc, List.append_assoc, List.append_assoc] at hrest
    obtain ⟨hr, -⟩ := Header.octets_append_inj hrest
    have hsize : r.header.size = declared a := by rw [hr, Header.size_ofNats _ hlt]
    refine ⟨r, hraw, ?_, hsize, ?_⟩
    · rw [hr, Header.code_ofNats _ (hcode _)]
    · rw [hspans.stride_eq, hsize, hlength]
  steppedOver := by
    intro c c' error n hrun hunknown
    obtain ⟨r, hraw, -⟩ := hF.run_decode_unknown (hdecode ▸ hrun) hunknown
    exact ⟨r, hraw⟩

theorem Action.scansAlong (limits : Limits) :
    ScansAlong Action .action .paddingIncluded length limits :=
  describes_family.scansAlong decode_eq (follows limits) written ActionKind.code_lt fun _ => rfl

theorem Instruction.scansAlong (limits : Limits) :
    ScansAlong Instruction .instruction .paddingIncluded length limits :=
  (describes_family limits).scansAlong (decode_eq limits) (follows limits) written
    InstructionKind.code_lt fun _ => rfl

theorem QueueProperty.scansAlong (limits : Limits) :
    ScansAlong QueueProperty .queueProperty .paddingIncluded length limits :=
  describes_family.scansAlong decode_eq (follows limits) written QueuePropertyKind.code_lt
    fun _ => rfl

theorem TableProperty.scansAlong (limits : Limits) :
    ScansAlong TableProperty .tableProperty .paddingExcluded declaredLength limits :=
  (describes_family limits).scansAlong (decode_eq limits) (follows limits) written
    TablePropertyKind.code_lt fun _ => rfl

/-! ## Sequences of records -/

/-- What is read as a sequence of records is found by a scan as well: as many records, and each
    agrees with the value in its place. No machine has a larger buffer than `Limits.unbounded`
    octets. -/
def ScannedAlike (α : Type) [Entry α] [Kinded α] (e : Element) (framing : Framing)
    (declared : α → Nat) : Prop :=
  ∀ (bs : Octets) (as : List α), bs.length ≤ Limits.unbounded →
    Record.ofOctetsWithin .unlimited bs = .ok as →
      ∃ rs, Scan.records e framing .unlimited bs = .ok rs
        ∧ List.Forall₂ (RawRecord.Frames declared) rs as

theorem ScansAlong.scannedAlike [Entry α] [Kinded α] {e : Element} {framing : Framing}
    {declared : α → Nat} (h : ScansAlong α e framing declared .unlimited) :
    ScannedAlike α e framing declared := by
  intro bs as hbs hread
  obtain ⟨c, hrun, hend⟩ := Record.ofOctetsWithin_eq_ok_iff.1 hread
  have hconsumes : (Record.decode .unlimited : Decoder α).Consumes := by
    intro c a c' hstep
    obtain ⟨r, hraw, -⟩ := h.read hstep
    exact RawRecord.consumes_decode e framing c r c' hraw
  obtain ⟨hpass, -, -⟩ := (run_many_ok_iff hconsumes).1 hrun
  obtain ⟨rs, hraw, hagree⟩ := hpass.beside h.read
  exact ⟨rs, RecordFormat.records_of_pass hbs hraw hend, hagree⟩

/-! ## Sequences of match fields -/

/-- What is read as a sequence of match fields is found by a scan as well, field by field. -/
def FieldsScannedAlike : Prop :=
  ∀ (bs : Octets) (fs : List Field), bs.length ≤ Limits.unbounded →
    Record.ofOctetsWithin .unlimited bs = .ok fs →
      ∃ rs, Scan.oxmFields .unlimited bs = .ok rs ∧ List.Forall₂ RawField.Frames rs fs

theorem Field.frames_raw (f : Field) : f.raw.Frames f where
  header_eq := rfl
  oxmType_eq := f.oxmType_raw
  octets_eq := f.octets_raw
  stride_eq := f.length_eq_header.symm

theorem fieldsScannedAlike : FieldsScannedAlike := by
  intro bs fs hbs hread
  obtain ⟨c, hrun, hend⟩ := Record.ofOctetsWithin_eq_ok_iff.1 hread
  obtain ⟨hpass, -, -⟩ := (run_many_ok_iff (Field.consumes .unlimited)).1 hrun
  have hoctets : bs = (fs.map Field.raw).flatMap RawField.octets := by
    have h := Field.octets_of_pass hpass
    rw [hend, List.append_nil] at h
    rw [Field.flatMap_raw]
    exact h
  rw [hoctets] at hbs ⊢
  refine ⟨fs.map Field.raw, Scan.oxmFields_raw hbs, ?_⟩
  exact List.forall₂_map_left_iff.2 (List.forall₂_same.2 fun f _ => f.frames_raw)

/-! ## Every family -/

/-- What is read as a sequence, of actions, of instructions, of queue properties, of table
    properties or of match fields, is scanned as the same sequence. -/
theorem scans_agree_with_reading :
    ScannedAlike Action .action .paddingIncluded Action.length
      ∧ ScannedAlike Instruction .instruction .paddingIncluded Instruction.length
      ∧ ScannedAlike QueueProperty .queueProperty .paddingIncluded QueueProperty.length
      ∧ ScannedAlike TableProperty .tableProperty .paddingExcluded TableProperty.declaredLength
      ∧ FieldsScannedAlike :=
  ⟨(Action.scansAlong .unlimited).scannedAlike, (Instruction.scansAlong .unlimited).scannedAlike,
    (QueueProperty.scansAlong .unlimited).scannedAlike,
    (TableProperty.scansAlong .unlimited).scannedAlike, fieldsScannedAlike⟩

/-- The header of a table property does not count the padding, the stride does. -/
theorem scans_agree_on_padded_properties :
    let bs : Octets := [0, 2, 0, 6, 7, 8, 0xff, 0xff, 0, 10, 0, 4, 0, 0, 0, 0]
    let ps : List TableProperty := [.idList .nextTables [⟨7⟩, ⟨8⟩], .idList .wildcards []]
    let rs : List RawRecord := [⟨⟨2, 6⟩, [7, 8], 8⟩, ⟨⟨10, 4⟩, [], 8⟩]
    bs.length ≤ Limits.unbounded ∧ Record.ofOctetsWithin .unlimited bs = .ok ps
      ∧ Scan.records .tableProperty .paddingExcluded .unlimited bs = .ok rs
      ∧ List.Forall₂ (RawRecord.Frames TableProperty.declaredLength) rs ps := by
  intro bs ps rs
  have hbs : bs.length ≤ Limits.unbounded := by decide
  have hread : Record.ofOctetsWithin .unlimited bs = .ok ps := by decide +kernel
  have hscan : Scan.records .tableProperty .paddingExcluded .unlimited bs = .ok rs := by
    decide +kernel
  obtain ⟨rs', hrs, hagree⟩ := scans_agree_with_reading.2.2.2.1 bs ps hbs hread
  obtain rfl := Except.ok.inj (hscan.symm.trans hrs)
  exact ⟨hbs, hread, hscan, hagree⟩

end OpenFlow
