import OpenFlow.Proofs.Formats
import OpenFlow.Proofs.Recoding.Field
import OpenFlow.Proofs.Recoding.Format
import OpenFlow.Proofs.RoundTrip.Action

set_option autoImplicit false

/-! # Actions are written again

The open places of an action are those after its parameters: what fills up the length of its kind,
or the padding after the field that it sets. A length other than the one that the parameters ask for
is refused, so the length that is written again is the one that was read (`Action.follows`). -/

namespace OpenFlow.Action

open Decoder Template

/-- The octets after the header, with the filler left open. -/
def bodyTemplate : Action → Template
  | output port maxLength =>
    exact (bigEndian 4 port.toNat) ++ (exact (bigEndian 2 maxLength.toNat) ++ blanks 6)
  | setMplsTtl ttl | setNwTtl ttl => exact (bigEndian 1 ttl.toNat) ++ blanks 3
  | pushVlan ethertype | pushMpls ethertype | popMpls ethertype | pushPbb ethertype =>
    exact (bigEndian 2 ethertype.toNat) ++ blanks 2
  | setQueue queueId => exact (bigEndian 4 queueId.toNat)
  | group groupId => exact (bigEndian 4 groupId.toNat)
  | setField field => exact field.octets ++ blanks (gap (headerLength + field.length))
  | copyTtlOut | copyTtlIn | decMplsTtl | popVlan | decNwTtl | popPbb => blanks 4

theorem fill_bodyTemplate (a : Action) : a.bodyTemplate.fill = a.body := by
  cases a <;> simp [bodyTemplate, body, padding]

theorem length_eq_bodyTemplate (a : Action) :
    a.length = headerLength + a.bodyTemplate.length := by
  rw [length_eq_body, ← fill_bodyTemplate, length_fill]

/-- The octets of an action, with the filler left open. -/
def template (a : Action) : Template :=
  Framing.paddingIncluded.template a.kind.code a.length a.bodyTemplate

theorem fill_template (a : Action) : a.template.fill = a.octets := by
  rw [template, Framing.template_included, fill_append, fill_exact, fill_bodyTemplate]
  rfl

/-! ## Reading -/

/-- An action of a kind code, with the octets after the header. -/
def BodyOf (code : Nat) (a : Action) (t : Template) : Prop :=
  a.kind.code = code ∧ t = a.bodyTemplate

theorem BodyOf.header {code : Nat} {a : Action} {t : Template} (h : BodyOf code a t) :
    a.kind.code = code ∧ a.length = headerLength + t.length := by
  obtain ⟨hcode, rfl⟩ := h
  exact ⟨hcode, a.length_eq_bodyTemplate⟩

theorem follows_setField :
    (Layout.atLeast 8 decodeSetField).Follows (BodyOf ActionKind.setField.code) := by
  refine Layout.follows_of_body anywhere fun h _ => ?_
  refine Field.follows_decode.bind ?_
  rintro field _ rfl
  refine follows_ite (fun _ => follows_fail_bind) fun hsize => ?_
  refine (follows_pure (setField field)).weaken ?_
  rintro _ _ ⟨rfl, rfl⟩ n _ hn
  -- the length is that of the field with its padding, so the padding is what is left
  have hgap : n = gap (headerLength + field.length) := by
    rw [List.append_nil, length_exact, Field.length_octets, not_not.1 hsize, padded] at hn
    omega
  rw [hgap, List.append_nil]
  exact ⟨rfl, rfl⟩

theorem follows_layout {k : ActionKind} {layout : Layout Action} (h : layout? k = some layout) :
    layout.Follows (BodyOf k.code) := by
  cases k with
  | output =>
    cases h
    refine Layout.follows_fixed (follows_u32.bind ?_)
    rintro port _ rfl
    refine follows_u16.map ?_
    rintro maxLength _ rfl n hn
    obtain rfl : n = 6 := by
      simp [headerLength] at hn
      omega
    rw [List.append_assoc]
    exact ⟨rfl, rfl⟩
  | setMplsTtl =>
    cases h
    exact Layout.follows_number 3 rfl follows_u8 fun _ => ⟨rfl, rfl⟩
  | setNwTtl =>
    cases h
    exact Layout.follows_number 3 rfl follows_u8 fun _ => ⟨rfl, rfl⟩
  | pushVlan =>
    cases h
    exact Layout.follows_number 2 rfl follows_u16 fun _ => ⟨rfl, rfl⟩
  | pushMpls =>
    cases h
    exact Layout.follows_number 2 rfl follows_u16 fun _ => ⟨rfl, rfl⟩
  | popMpls =>
    cases h
    exact Layout.follows_number 2 rfl follows_u16 fun _ => ⟨rfl, rfl⟩
  | pushPbb =>
    cases h
    exact Layout.follows_number 2 rfl follows_u16 fun _ => ⟨rfl, rfl⟩
  | setQueue =>
    cases h
    exact Layout.follows_number 0 rfl follows_u32 fun _ => ⟨rfl, List.append_nil _⟩
  | group =>
    cases h
    exact Layout.follows_number 0 rfl follows_u32 fun _ => ⟨rfl, List.append_nil _⟩
  | setField =>
    cases h
    exact follows_setField
  -- no parameters: the whole body is filler
  | copyTtlOut =>
    cases h
    exact Layout.follows_bare 4 rfl ⟨rfl, rfl⟩
  | copyTtlIn =>
    cases h
    exact Layout.follows_bare 4 rfl ⟨rfl, rfl⟩
  | decMplsTtl =>
    cases h
    exact Layout.follows_bare 4 rfl ⟨rfl, rfl⟩
  | popVlan =>
    cases h
    exact Layout.follows_bare 4 rfl ⟨rfl, rfl⟩
  | decNwTtl =>
    cases h
    exact Layout.follows_bare 4 rfl ⟨rfl, rfl⟩
  | popPbb =>
    cases h
    exact Layout.follows_bare 4 rfl ⟨rfl, rfl⟩
  | experimenter => cases h

theorem follows (limits : Limits) :
    (Record.decode limits : Decoder Action).Follows anywhere (Drawn template) := by
  show decode.Follows anywhere (Drawn template)
  rw [decode_eq]
  refine (format.follows (S := BodyOf) ?_ fun _ _ _ => BodyOf.header).weaken ?_
  · intro h layout hlayout
    obtain ⟨k, hkind, hk⟩ := Option.bind_eq_some_iff.1 hlayout
    rw [← ActionKind.code_of_ofCode? hkind]
    exact follows_layout hk
  · rintro a _ ⟨_, ⟨-, rfl⟩, rfl, -⟩
    refine ⟨rfl, ?_⟩
    rw [fill_template]
    exact a.writes_encode

theorem template_ne_nil (a : Action) : a.template ≠ [] := Framing.template_ne_nil _ _ _ _

theorem consumes (limits : Limits) : (Record.decode limits : Decoder Action).Consumes :=
  (follows limits).consumes fun a _ ht => ht.1 ▸ a.template_ne_nil

/-- Actions that stand back to back up to the end. -/
theorem follows_sequence (limits : Limits) :
    (Sequence.decode limits : Decoder (List Action)).Follows atEnd
      (Drawn fun as => as.flatMap template) :=
  Sequence.follows_decode (follows limits) template_ne_nil

end OpenFlow.Action
