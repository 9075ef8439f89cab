import OpenFlow.Proofs.Recoding.Action
import OpenFlow.Proofs.RoundTrip.Bucket
import OpenFlow.Proofs.RoundTrip.Instruction

set_option autoImplicit false

/-! # Instructions and buckets are written again

What holds actions is open where its actions are, and in places of its own besides. The actions are
read up to the end, so the length that is written again is the one that was read. -/

namespace OpenFlow

open Decoder Template

/-! ## Instructions -/

namespace Instruction

/-- The octets after the header, with the filler left open. -/
def bodyTemplate : Instruction → Template
  | gotoTable tableId => exact (bigEndian 1 tableId.toNat) ++ blanks 3
  | writeMetadata metadata mask =>
    blanks 4 ++ (exact (bigEndian 8 metadata.toNat) ++ exact (bigEndian 8 mask.toNat))
  | writeActions actions | applyActions actions => blanks 4 ++ actions.flatMap Action.template
  | clearActions => blanks 4
  | meter meterId => exact (bigEndian 4 meterId.toNat)

theorem fill_bodyTemplate (i : Instruction) : i.bodyTemplate.fill = i.bodyOctets := by
  have hactions (as : List Action) :
      fill (blanks 4 ++ as.flatMap Action.template) = zeros 4 ++ as.flatMap Action.octets := by
    rw [fill_append, fill_blanks, fill_flatMap Action.fill_template]
  cases i with
  | writeActions as => exact hactions as
  | applyActions as => exact hactions as
  | _ => simp [bodyTemplate, bodyOctets]

theorem length_eq_bodyTemplate (i : Instruction) :
    i.length = headerLength + i.bodyTemplate.length := by
  rw [length_eq_body, ← fill_bodyTemplate, length_fill]

/-- The octets of an instruction, with the filler left open. -/
def template (i : Instruction) : Template :=
  Framing.paddingIncluded.template i.kind.code i.length i.bodyTemplate

theorem fill_template (i : Instruction) : i.template.fill = i.octets := by
  rw [template, Framing.template_included, fill_append, fill_exact, fill_bodyTemplate]
  rfl

/-- An instruction of a kind code, with the octets after the header. -/
def BodyOf (code : Nat) (i : Instruction) (t : Template) : Prop :=
  i.kind.code = code ∧ t = i.bodyTemplate

theorem BodyOf.header {code : Nat} {i : Instruction} {t : Template} (h : BodyOf code i t) :
    i.kind.code = code ∧ i.length = headerLength + t.length := by
  obtain ⟨hcode, rfl⟩ := h
  exact ⟨hcode, i.length_eq_bodyTemplate⟩

theorem follows_holdingActions {limits : Limits} {make : List Action → Instruction}
    {code : Nat}
    (hmake : ∀ as, BodyOf code (make as) (blanks 4 ++ as.flatMap Action.template)) :
    (holdingActions limits make).Follows (BodyOf code) := by
  refine Layout.follows_atLeast fun h => Follows.after_skip 4 ?_
  refine (Action.follows_sequence limits).map ?_
  rintro as _ ⟨rfl, -⟩
  exact hmake as

theorem follows_layout {limits : Limits} {k : InstructionKind} {layout : Layout Instruction}
    (h : layout? limits k = some layout) : layout.Follows (BodyOf k.code) := by
  cases k with
  | gotoTable =>
    cases h
    exact Layout.follows_number 3 rfl follows_u8 fun _ => ⟨rfl, rfl⟩
  | writeMetadata =>
    cases h
    refine Layout.follows_fixed (Follows.after_skip 4 (follows_u64.bind ?_))
    rintro metadata _ rfl
    refine follows_u64.map ?_
    rintro mask _ rfl n hn
    obtain rfl : n = 0 := by
      simp [headerLength] at hn
      omega
    exact ⟨rfl, List.append_nil _⟩
  | writeActions =>
    cases h
    exact follows_holdingActions fun as => ⟨rfl, rfl⟩
  | applyActions =>
    cases h
    exact follows_holdingActions fun as => ⟨rfl, rfl⟩
  | clearActions =>
    cases h
    exact Layout.follows_bare 4 rfl ⟨rfl, rfl⟩
  | meter =>
    cases h
    exact Layout.follows_number 0 rfl follows_u32 fun _ => ⟨rfl, List.append_nil _⟩
  | experimenter => cases h

theorem follows (limits : Limits) :
    (Record.decode limits : Decoder Instruction).Follows anywhere (Drawn template) := by
  show (decode limits).Follows anywhere (Drawn template)
  rw [decode_eq]
  refine ((format limits).follows (S := BodyOf) ?_ fun _ _ _ => BodyOf.header).weaken ?_
  · intro h layout hlayout
    obtain ⟨k, hkind, hk⟩ := Option.bind_eq_some_iff.1 hlayout
    rw [← InstructionKind.code_of_ofCode? hkind]
    exact follows_layout hk
  · rintro i _ ⟨_, ⟨-, rfl⟩, rfl, hlength⟩
    refine ⟨rfl, ?_⟩
    rw [fill_template]
    exact writes_encode hlength

theorem template_ne_nil (i : Instruction) : i.template ≠ [] := Framing.template_ne_nil _ _ _ _

theorem consumes (limits : Limits) : (Record.decode limits : Decoder Instruction).Consumes :=
  (follows limits).consumes fun i _ ht => ht.1 ▸ i.template_ne_nil

theorem recodes (limits : Limits) : Recodes limits (List Instruction) :=
  recodes_of_follows (Sequence.follows_decode (follows limits) template_ne_nil)

end Instruction

/-! ## Buckets -/

namespace Bucket

/-- The octets after the length, with the filler left open. -/
def bodyTemplate (b : Bucket) : Template :=
  exact (bigEndian 2 b.weight.toNat) ++ (exact (bigEndian 4 b.watchPort.toNat)
    ++ (exact (bigEndian 4 b.watchGroup.toNat)
      ++ (blanks 4 ++ b.actions.flatMap Action.template)))

/-- The octets of a bucket, with the filler left open. -/
def template (b : Bucket) : Template := exact (bigEndian 2 b.length) ++ b.bodyTemplate

theorem fill_template (b : Bucket) : b.template.fill = b.octets := by
  simp [template, bodyTemplate, octets, body, fill_flatMap Action.fill_template]

theorem length_eq_bodyTemplate (b : Bucket) : b.length = (blanks 2 ++ b.bodyTemplate).length := by
  rw [← length_octets, ← fill_template, length_fill, template, List.length_append,
    List.length_append, length_exact, length_bigEndian, length_blanks]

theorem follows (limits : Limits) :
    (Record.decode limits : Decoder Bucket).Follows anywhere (Drawn template) := by
  refine follows_measured (by decide) (Follows.after_skip 2 ?_)
  refine follows_u16.bind ?_
  rintro weight _ rfl
  refine follows_u32.bind ?_
  rintro watchPort _ rfl
  refine follows_u32.bind ?_
  rintro watchGroup _ rfl
  refine Follows.after_skip 4 ((Action.follows_sequence limits).map ?_)
  rintro as _ ⟨rfl, -⟩
  refine ⟨bodyTemplate ⟨weight, watchPort, watchGroup, as⟩, rfl, fun hlt => ?_⟩
  have hlength := length_eq_bodyTemplate ⟨weight, watchPort, watchGroup, as⟩
  refine ⟨?_, ?_⟩
  · rw [template, hlength]
    rfl
  · rw [fill_template]
    exact writes_encode (Nat.le_of_lt_succ (hlength ▸ hlt))

theorem template_ne_nil (b : Bucket) : b.template ≠ [] := by
  apply List.length_pos_iff.1
  rw [← length_fill, fill_template]
  exact List.length_pos_iff.2 b.octets_ne_nil

theorem consumes (limits : Limits) : (Record.decode limits : Decoder Bucket).Consumes :=
  (follows limits).consumes fun b _ ht => ht.1 ▸ b.template_ne_nil

theorem recodes (limits : Limits) : Recodes limits (List Bucket) :=
  recodes_of_follows (Sequence.follows_decode (follows limits) template_ne_nil)

end Bucket

end OpenFlow
