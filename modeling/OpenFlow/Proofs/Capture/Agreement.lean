import Mathlib.Data.List.Sort
import OpenFlow.Capture.Decoding
import OpenFlow.Proofs.Capture.Tiling
import OpenFlow.Proofs.Scanning.Agreement
import OpenFlow.Proofs.Sequence.Lenient
import OpenFlow.Proofs.Skipping.UnknownOnly

set_option autoImplicit false

/-! # Inspecting and decoding tell the same

An inspection goes by headers alone, and a decoding interprets what it can and steps over the rest.
Where a capture can be decoded it can be inspected, and each record that was decoded is found under
the same name and with the same length; the records that are found besides are as many as the codes
that were stepped over, whether it was a record of an unknown kind or one that holds something
unknown. A match keeps its fields in the order of their types, so its fields are those found, sorted
(`decoding_agrees_with_inspection`). -/

namespace OpenFlow

open Decoder

/-! ## What both tell of a record -/

/-- The name and the length of what was found. -/
def Finding.outline (f : Finding) : Option String × Nat := (f.name?, f.length)

/-- The name and the length of a decoded record. -/
def DecodedRecord.outline (r : DecodedRecord) : Option String × Nat := (some r.name, r.length)

/-- A decoding tells of a capture what an inspection tells of it. Of the records that were found it
    leaves out as many as were skipped, and tells of the others in their order. Of a match it tells
    all fields, in the order of their types. -/
structure Decoding.AgreesWith (d : Decoding) (i : Inspection) : Prop where
  family_eq : d.family = i.family
  records : d.family ≠ .matchFields →
    (d.records.map DecodedRecord.outline).Sublist (i.findings.map Finding.outline)
      ∧ d.records.length + d.skipped.length = i.findings.length
  fields : d.family = .matchFields →
    d.records.map DecodedRecord.outline
      = (i.findings.mergeSort fun f g => f.code ≤ g.code).map Finding.outline

/-! ## Records -/

section Records

variable {α : Type}

/-- What became of a record that a scan finds: it was read, as a value that agrees with it, or it
    was stepped over. -/
inductive Became [Record α] [Kinded α] (declared : α → Nat) : RawRecord → Except Nat α → Prop where
  | read {r : RawRecord} {a : α} (hframes : r.Frames declared a) : Became declared r (.ok a)
  | steppedOver (r : RawRecord) (code : Nat) : Became declared r (.error code)

theorem ScansAlong.run_known [Record α] [Kinded α] {e : Element} {framing : Framing}
    {declared : α → Nat} {limits : Limits} (h : ScansAlong α e framing declared limits)
    {c c' : Cursor} {x : Except Nat α}
    (hrun : (known (Record.decode limits)).run c = (.ok x, c')) :
    ∃ r, (RawRecord.decode e framing).run c = (.ok r, c') ∧ Became declared r x := by
  rcases run_known_cases hrun with ⟨a, rfl, hok⟩ | ⟨error, code, rfl, herror, hcode⟩
  · obtain ⟨r, hraw, hframes⟩ := h.read hok
    exact ⟨r, hraw, .read hframes⟩
  · obtain ⟨r, hraw⟩ := h.steppedOver herror hcode
    exact ⟨r, hraw, .steppedOver r code⟩

theorem Inspection.length_ofRecords (family : CaptureFamily) (offset : Nat) (rs : List RawRecord) :
    (ofRecords family offset rs).length = rs.length := by
  induction rs generalizing offset with
  | nil => rfl
  | cons r rs ih => simp [ofRecords, ih]

/-- The records that were read stand among those that are found, wherever these begin. -/
theorem outlines_sublist [Record α] [Kinded α] {declared : α → Nat} {family : CaptureFamily}
    {describe : α → DecodedRecord}
    (hname : ∀ a, family.kindName? (Kinded.code (Kinded.kind a)) = some (describe a).name)
    (hlength : ∀ a, (describe a).length = declared a) {rs : List RawRecord}
    {xs : List (Except Nat α)} (h : List.Forall₂ (Became declared) rs xs) (offset : Nat) :
    (((sides xs).1.map describe).map DecodedRecord.outline).Sublist
      ((Inspection.ofRecords family offset rs).map Finding.outline) := by
  induction h generalizing offset with
  | nil => exact .slnil
  | @cons r x rs xs hbecame _ ih =>
    rw [← sortIn_sides]
    cases hbecame with
    | @read a hframes =>
      have houtline : (describe a).outline
          = (family.kindName? r.header.code, r.header.size) := by
        rw [DecodedRecord.outline, hlength, ← hname, hframes.code_eq, hframes.size_eq]
      rw [sortIn, List.map_cons, List.map_cons, houtline]
      exact (ih (offset + r.stride)).cons_cons _
    | steppedOver code => exact (ih (offset + r.stride)).cons _

theorem Decoding.ofSequence_ok_iff [Entry α] {describe : α → DecodedRecord}
    {family : CaptureFamily} {limits : Limits} {bs : Octets} {d : Decoding} :
    ofSequence describe family limits bs = .ok d ↔ ∃ as skipped c,
      (Sequence.decodeKnown limits).run (.start bs) = (.ok (as, skipped), c)
        ∧ ⟨family, as.map describe, skipped, broken? (Entry.validateAll as)⟩ = d := by
  unfold ofSequence
  dsimp only
  rcases hrun : (Sequence.decodeKnown limits : Decoder (List α × List Nat)).run (.start bs)
    with ⟨error | ⟨as, skipped⟩, c⟩
  · simp [Except.mapError, bind, Except.bind]
  · simp [Except.mapError, bind, Except.bind, pure, Except.pure]

theorem ScansAlong.agrees [Entry α] [Kinded α] {family : CaptureFamily} {declared : α → Nat}
    {limits : Limits} (h : ScansAlong α family.element family.framing declared limits)
    (hdetached : Detached α limits) (hfamily : family ≠ .matchFields)
    {describe : α → DecodedRecord}
    (hname : ∀ a, family.kindName? (Kinded.code (Kinded.kind a)) = some (describe a).name)
    (hlength : ∀ a, (describe a).length = declared a) {bs : Octets}
    (hbs : bs.length ≤ Limits.unbounded) {d : Decoding}
    (hd : Decoding.ofSequence describe family limits bs = .ok d) :
    ∃ i, Inspection.ofOctets family .unlimited bs = .ok i ∧ d.AgreesWith i := by
  obtain ⟨as, skipped, c, hrun, rfl⟩ := Decoding.ofSequence_ok_iff.1 hd
  obtain ⟨xs, ⟨hpass, hend, -⟩, hsides⟩ := hdetached.run_decodeKnown_iff.1 hrun
  obtain ⟨rs, hraw, hbecame⟩ := hpass.beside h.run_known
  have hscan := RecordFormat.records_of_pass hbs hraw hend
  have hsublist := outlines_sublist hname hlength hbecame 0
  have hcount := length_sides xs
  rw [hsides] at hsublist hcount
  have hfind : Inspection.find family .unlimited bs = .ok (Inspection.ofRecords family 0 rs) :=
    (Inspection.find_records_ok_iff hfamily).2 ⟨rs, hscan, rfl⟩
  refine ⟨_, Inspection.ofOctets_ok_iff.2 ⟨_, hfind, rfl⟩, rfl, fun _ => ⟨hsublist, ?_⟩,
    fun heq => absurd heq hfamily⟩
  rw [List.length_map, Inspection.length_ofRecords, hbecame.length_eq]
  exact hcount

end Records

/-! ## Match fields -/

namespace Field

/-- What both tell of a match field, behind its type. -/
def outline (f : Field) : Nat × Option String × Nat := (Keyed.key f, some f.kind.name, f.length)

theorem outlines_ofFields (fs : List Field) (offset : Nat) :
    (Inspection.ofFields offset (fs.map raw)).map (fun g => (g.code, g.outline))
      = fs.map outline := by
  induction fs generalizing offset with
  | nil => rfl
  | cons f fs ih =>
    have hkind : OxmKind.ofHeader? f.raw.header = some f.kind := f.kind.ofHeader?_header f.hasMask
    rw [List.map_cons, Inspection.ofFields, List.map_cons, ih, List.map_cons, hkind, outline,
      Finding.outline, ← f.oxmType_raw, ← f.frames_raw.stride_eq]
    rfl

/-- Fields whose types ascend are what sorting makes of the same fields in any order. -/
theorem outlines_mergeSort {fs gs : List Field} (hperm : gs.Perm fs)
    (hascending : gs.Pairwise fun f g => Keyed.key f < Keyed.key g) :
    (fs.map outline).mergeSort (fun p q => p.1 ≤ q.1) = gs.map outline := by
  have hsorted : ((fs.map outline).mergeSort fun p q => p.1 ≤ q.1).Pairwise
      fun p q => p.1 ≤ q.1 := by
    refine (List.pairwise_mergeSort ?_ ?_ _).imp of_decide_eq_true
    · intro p q r hpq hqr
      exact decide_eq_true (Nat.le_trans (of_decide_eq_true hpq) (of_decide_eq_true hqr))
    · intro p q
      simp [Nat.le_total]
  have hsorted' : (gs.map outline).Pairwise fun p q => p.1 ≤ q.1 :=
    List.pairwise_map.2 (hascending.imp Nat.le_of_lt)
  have hsame : ((fs.map outline).mergeSort fun p q => p.1 ≤ q.1).Perm (gs.map outline) :=
    (List.mergeSort_perm _ _).trans (hperm.map outline).symm
  refine List.Perm.eq_of_pairwise ?_ hsorted hsorted' hsame
  -- no two fields have one type
  intro p q hp hq hpq hqp
  obtain ⟨f, hf, rfl⟩ := List.mem_map.1 (hsame.mem_iff.1 hp)
  obtain ⟨g, hg, rfl⟩ := List.mem_map.1 hq
  have hkey : Keyed.key f = Keyed.key g := Nat.le_antisymm hpq hqp
  have hdistinct : (gs.map fun f => Keyed.key f).Nodup :=
    List.pairwise_map.2 (hascending.imp Nat.ne_of_lt)
  rw [List.inj_on_of_nodup_map hdistinct hf hg hkey]

end Field

namespace Match

/-- What a frame holds behind its header is found in it. -/
theorem findFields_frame {fs : List Field} {pad : Octets}
    (hlength : headerLength + ((fs.map Field.raw).flatMap RawField.octets).length ≤ 0xffff) :
    Inspection.findFields .unlimited (frame (fs.map Field.raw) pad)
      = .ok (Inspection.ofFields headerLength (fs.map Field.raw)) := by
  have hsmall : ((fs.map Field.raw).flatMap RawField.octets).length ≤ Limits.unbounded :=
    Nat.le_trans (Nat.le_trans (Nat.le_add_left _ _) hlength) (by decide)
  have hcode : MatchType.oxm.toNat < 65536 := MatchType.oxm.toNat_lt
  exact Inspection.findFields_ok_iff.2 ⟨_, _, pad, _,
    Header.opens_ofNats hcode (Nat.lt_succ_of_le hlength) rfl pad, rfl,
    Scan.oxmFields_raw hsmall, rfl⟩

theorem agrees {limits : Limits} {bs : Octets} {d : Decoding}
    (hd : Decoding.ofMatch limits bs = .ok d) :
    ∃ i, Inspection.ofOctets .matchFields .unlimited bs = .ok i ∧ d.AgreesWith i := by
  unfold Decoding.ofMatch at hd
  rcases hread : (Record.ofOctetsWithin limits bs : Except DecodeError Match) with e | m
  · rw [hread] at hd
    cases hd
  · rw [hread] at hd
    obtain rfl := Except.ok.inj hd
    obtain ⟨c, hrun, hend⟩ := Record.ofOctetsWithin_eq_ok_iff.1 hread
    obtain ⟨fs, pad, hbs, -, hlength, -, hdistinct, hfields⟩ := run_decode_ok hrun
    rw [hend, List.append_nil] at hbs
    obtain rfl : bs = _ := hbs
    have hkeyed : m.fields.WellKeyed := hfields ▸ KeyedSet.wellKeyed_ofList fs
    have hperm : m.fields.toList.Perm fs := hfields ▸ KeyedSet.toList_ofList_perm hdistinct
    refine ⟨_, Inspection.ofOctets_ok_iff.2 ⟨_, findFields_frame hlength, rfl⟩, rfl,
      fun hne => absurd rfl hne, fun _ => ?_⟩
    have hsorted := Field.outlines_mergeSort hperm hkeyed.pairwise_toList
    rw [← Field.outlines_ofFields fs headerLength,
      ← List.map_mergeSort (r := fun f g => decide (f.code ≤ g.code)) fun _ _ _ _ => rfl] at hsorted
    have houtlines := congrArg (List.map Prod.snd) hsorted
    rw [List.map_map, List.map_map] at houtlines
    rw [List.map_map]
    exact houtlines.symm

end Match

/-! ## Captures of every family -/

/-- Where a capture is decoded, within whatever limits, it is inspected as well, and the decoding
    agrees with the inspection. No machine has a larger buffer than `Limits.unbounded` octets. -/
theorem decoding_agrees_with_inspection {family : CaptureFamily} {limits : Limits} {bs : Octets}
    {d : Decoding} (hbs : bs.length ≤ Limits.unbounded)
    (hd : Decoding.ofOctets family limits bs = .ok d) :
    ∃ i, Inspection.ofOctets family .unlimited bs = .ok i ∧ d.AgreesWith i := by
  cases family with
  | actions =>
    refine (Action.scansAlong limits).agrees (Action.detached limits) (by decide) (fun a => ?_)
      (fun _ => rfl) hbs hd
    exact congrArg (Option.map ActionKind.name) a.kind.ofCode?_code
  | instructions =>
    refine (Instruction.scansAlong limits).agrees (Instruction.detached limits) (by decide)
      (fun i => ?_) (fun _ => rfl) hbs hd
    exact congrArg (Option.map InstructionKind.name) i.kind.ofCode?_code
  | matchFields => exact Match.agrees hd
  | tableProperties =>
    refine (TableProperty.scansAlong limits).agrees (TableProperty.detached limits) (by decide)
      (fun p => ?_) (fun _ => rfl) hbs hd
    exact congrArg (Option.map TablePropertyKind.name) p.kind.ofCode?_code
  | queueProperties =>
    refine (QueueProperty.scansAlong limits).agrees (QueueProperty.detached limits) (by decide)
      (fun p => ?_) (fun _ => rfl) hbs hd
    exact congrArg (Option.map QueuePropertyKind.name) p.kind.ofCode?_code

/-- Of four instructions three are left out: one of an experimenter, one that applies an action that
    sets a field outside of the protocol, and one of an unknown kind. -/
theorem decoding_agrees_on_mixedInstructions :
    RecordSort.mixedInstructions.length ≤ Limits.unbounded
      ∧ ∃ d i, Decoding.ofOctets .instructions .unlimited RecordSort.mixedInstructions = .ok d
        ∧ d.skipped = [0xffff, 0x40007f, 9] ∧ d.AgreesWith i
        ∧ i.findings.map Finding.outline = [(some "experimenter", 8), (some "goto_table", 8),
          (some "apply_actions", 32), (none, 8)] := by
  have hbs : RecordSort.mixedInstructions.length ≤ Limits.unbounded := by decide
  have hd : Decoding.ofOctets .instructions .unlimited RecordSort.mixedInstructions = .ok _ := rfl
  obtain ⟨i, hi, hagrees⟩ := decoding_agrees_with_inspection hbs hd
  refine ⟨hbs, _, i, hd, rfl, hagrees, ?_⟩
  rw [← Except.ok.inj hi]
  decide +kernel

end OpenFlow
