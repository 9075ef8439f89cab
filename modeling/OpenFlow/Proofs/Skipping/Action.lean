import OpenFlow.Proofs.Formats
import OpenFlow.Proofs.Oxm.Field
import OpenFlow.Proofs.Skipping.Lockstep

set_option autoImplicit false

/-! # Unknown match fields inside actions

An action that sets a field holds the one structure that may be of an unknown kind inside an action.
The body of every other action is read without a look at a kind code, so it yields an action of the
kind in the header or fails for another reason (`Action.recognizes_layout`). -/

namespace OpenFlow

/-! ## Match fields that are not of the protocol -/

/-- The type of a match field that is not of the protocol. -/
def RawField.unknown? (f : RawField) : Option Nat :=
  if (OxmKind.ofHeader? f.header).isNone then some f.header.oxmType else none

theorem RawField.run_decode {h : OxmHeader} {payload tail : Octets} {c : Cursor}
    (ho : h.Opens payload tail c.rest) : (decode.run c).1 = .ok ⟨h, payload⟩ := by
  obtain ⟨pos, rest⟩ := c
  obtain rfl : rest = h.octets ++ payload ++ tail := by
    rw [List.append_assoc]
    exact ho.octets_eq
  exact congrArg Prod.fst (reads_decode ho.length_eq tail pos)

namespace Field

variable {c c' : Cursor}

/-- A field that is read is of the protocol, ... -/
theorem run_decode_ok {f : Field} (hrun : decode.run c = (.ok f, c')) :
    ∃ r, (RawField.decode.run c).1 = .ok r ∧ r.unknown? = none := by
  rcases run_decode_cases c with
    ⟨needed, -, hcase⟩ | ⟨h, payload, tail, ho, ⟨-, hcase⟩ | ⟨hkind, -⟩⟩
  · cases hcase.symm.trans hrun
  · cases hcase.symm.trans hrun
  · exact ⟨_, RawField.run_decode ho, by simp [RawField.unknown?, hkind]⟩

/-- ... and one that is reported as unknown is not. -/
theorem run_decode_unknown {e : DecodeError} {n : Nat} (hrun : decode.run c = (.error e, c'))
    (hcode : e.unknownCode? = some n) :
    ∃ r, (RawField.decode.run c).1 = .ok r ∧ r.unknown? = some n := by
  rcases run_decode_cases c with
    ⟨needed, -, hcase⟩ | ⟨h, payload, tail, ho, ⟨hkind, hcase⟩ | ⟨-, hcase | ⟨f, hcase⟩⟩⟩
  · cases hcase.symm.trans hrun
    cases hcode
  · cases hcase.symm.trans hrun
    refine ⟨_, RawField.run_decode ho, ?_⟩
    simpa [RawField.unknown?, hkind, DecodeError.unknownCode?] using hcode
  · cases hcase.symm.trans hrun
    cases hcode
  · cases hcase.symm.trans hrun

end Field

/-! ## Actions -/

namespace Action

/-- The type of the field that an action sets, if it sets one that is not of the protocol. -/
def unknownField? (r : RawRecord) : Option Nat :=
  if r.header.code = ActionKind.setField.code then
    match (RawField.decode.run r.inside).1 with
    | .ok f => f.unknown?
    | .error _ => none
  else none

/-- What can be told of actions. Those of experimenters have no decoder. -/
def family : RecordFamily where
  element := .action
  framing := .paddingIncluded
  knows code := (ActionKind.ofCode? code).any (· ≠ .experimenter)
  unknownInside? := unknownField?

theorem unknownField?_of_ne {r : RawRecord} (h : r.header.code ≠ ActionKind.setField.code) :
    unknownField? r = none := if_neg h

theorem unknownField?_of_eq {h : Header} {body : Octets} {stride : Nat} {f : RawField}
    (hcode : h.code = ActionKind.setField.code)
    (hfield : (RawField.decode.run ⟨headerLength, body⟩).1 = .ok f) :
    unknownField? ⟨h, body, stride⟩ = f.unknown? := by
  unfold unknownField? RawRecord.inside
  rw [if_pos hcode, hfield]

/-- Other bodies than that of an action that sets a field are read without a look at a kind. -/
theorem recognizes_layout {k : ActionKind} {layout : Layout Action}
    (hlayout : layout? k = some layout) (hk : k ≠ .setField) (h : Header) :
    (layout.body h).Recognizes (·.kind = k) := by
  cases k with
  | setField => exact absurd rfl hk
  | experimenter => simp [layout?] at hlayout
  | output =>
    obtain rfl := Option.some.inj hlayout
    exact Decoder.recognizes_u32.bind fun _ _ => Decoder.recognizes_u16.map fun _ _ => rfl
  | copyTtlOut | copyTtlIn | decMplsTtl | popVlan | decNwTtl | popPbb =>
    obtain rfl := Option.some.inj hlayout
    exact Decoder.recognizes_pure rfl
  | setMplsTtl | setNwTtl =>
    obtain rfl := Option.some.inj hlayout
    exact Decoder.recognizes_u8.map fun _ _ => rfl
  | pushVlan | pushMpls | popMpls | pushPbb =>
    obtain rfl := Option.some.inj hlayout
    exact Decoder.recognizes_u16.map fun _ _ => rfl
  | setQueue | group =>
    obtain rfl := Option.some.inj hlayout
    exact Decoder.recognizes_u32.map fun _ _ => rfl

/-- After the field of an action that sets one there is no other kind to look at. -/
theorem recognizes_checkLength (h : Header) (field : Field) :
    (do if h.size ≠ padded (headerLength + field.length) then
          Decoder.fail (.invalidLength .action ActionKind.setField.code h.size)
        return setField field : Decoder Action).Recognizes (·.kind = .setField) :=
  Decoder.recognizes_ite (fun _ => Decoder.recognizes_fail_bind rfl)
    fun _ => Decoder.recognizes_pure rfl

theorem layout?_code_cases {code : Nat} {layout : Layout Action}
    (h : format.layout? code = some layout) :
    ∃ k, k.code = code ∧ layout? k = some layout := by
  obtain ⟨k, hkind, hlayout⟩ := Option.bind_eq_some_iff.1 h
  exact ⟨k, ActionKind.code_of_ofCode? hkind, hlayout⟩

theorem describes_family : format.Describes family (·.kind.code) where
  element_eq := rfl
  framing_eq := rfl
  knows_eq n := by
    show ((ActionKind.ofCode? n).bind layout?).isSome = (ActionKind.ofCode? n).any _
    cases ActionKind.ofCode? n with
    | none => rfl
    | some k => cases k <;> rfl
  value := by
    intro h body layout a hlayout hbody
    obtain ⟨k, hcode, hk⟩ := layout?_code_cases hlayout
    have hrun : (layout.body h).run ⟨headerLength, body⟩ = (.ok a, _) := Prod.ext hbody rfl
    -- an action that sets a field is as good as its field; no other looks at a kind
    by_cases hset : k = .setField
    · subst hset
      obtain rfl := Option.some.inj hk
      obtain ⟨hkind, f, c₁, hfield⟩ := Decoder.exists_of_bind_ok (recognizes_checkLength h) hrun
      obtain ⟨r, hraw, hnone⟩ := Field.run_decode_ok hfield
      refine ⟨?_, ?_⟩
      · rw [hkind, hcode]
      · exact (unknownField?_of_eq hcode.symm hraw).trans hnone
    · have hkind : a.kind = k := (recognizes_layout hk hset h).value hrun
      refine ⟨?_, ?_⟩
      · rw [hkind, hcode]
      · refine unknownField?_of_ne fun heq => hset (ActionKind.code_injective ?_)
        exact hcode.trans heq
  failure := by
    intro h body layout e n hlayout hbody hunknown
    obtain ⟨k, hcode, hk⟩ := layout?_code_cases hlayout
    have hrun : (layout.body h).run ⟨headerLength, body⟩ = (.error e, _) := Prod.ext hbody rfl
    refine ⟨rfl, ?_⟩
    by_cases hset : k = .setField
    · subst hset
      obtain rfl := Option.some.inj hk
      have hfield := Decoder.run_of_bind_unknown (recognizes_checkLength h) hrun hunknown
      obtain ⟨r, hraw, hsome⟩ := Field.run_decode_unknown hfield hunknown
      exact (unknownField?_of_eq hcode.symm hraw).trans hsome
    · have hnone := (recognizes_layout hk hset h).failure hrun
      simp [hnone] at hunknown

end Action

end OpenFlow
