import OpenFlow.Proofs.Skipping.Action

set_option autoImplicit false

/-! # Unknown actions inside instructions

Two instructions hold actions, any of which may be of an unknown kind or set a field that is not of
the protocol. What such an instruction reports is the first of these codes. It is found by a scan
that goes over the actions without decoding them. -/

namespace OpenFlow

namespace InstructionKind

/-- Instructions of a kind hold actions. -/
def holdsActions : InstructionKind → Bool
  | writeActions | applyActions => true
  | _ => false

end InstructionKind

namespace Instruction

/-- The first code without a decoder among the actions of an instruction that holds actions. -/
def unknownAction? (r : RawRecord) : Option Nat :=
  if (InstructionKind.ofCode? r.header.code).any (·.holdsActions) then
    Action.family.firstUnknown? (r.inside.advance 4)
  else none

/-- What can be told of instructions. Those of experimenters have no decoder. -/
def family : RecordFamily where
  element := .instruction
  framing := .paddingIncluded
  knows code := (InstructionKind.ofCode? code).any (· ≠ .experimenter)
  unknownInside? := unknownAction?

/-! ## Instructions that hold actions -/

section HoldingActions

variable {limits : Limits} {k : InstructionKind} {layout : Layout Instruction} {h : Header}
  {c c' : Cursor}

theorem layout?_of_holdsActions (hlayout : layout? limits k = some layout)
    (hholds : k.holdsActions = true) :
    ∃ make, layout = holdingActions limits make ∧ ∀ as, (make as).kind = k := by
  cases k with
  | writeActions => exact ⟨writeActions, (Option.some.inj hlayout).symm, fun _ => rfl⟩
  | applyActions => exact ⟨applyActions, (Option.some.inj hlayout).symm, fun _ => rfl⟩
  | gotoTable | writeMetadata | clearActions | meter | experimenter =>
    simp [InstructionKind.holdsActions] at hholds

theorem decode_actions_eq (limits : Limits) :
    (Sequence.decode limits : Decoder (List Action))
      = Decoder.many (limits.of .actions) (Sequence.overfull Action limits)
        Action.format.decode := by
  rw [← Action.decode_eq]
  rfl

/-- The actions of an instruction stand after its padding. -/
theorem run_holdingActions (make : List Action → Instruction)
    {result : Except DecodeError Instruction}
    (hrun : ((holdingActions limits make).body h).run c = (result, c'))
    (hresult : ∀ e, result = .error e → e.unknownCode? ≠ none) :
    (do return make (← Sequence.decode limits) : Decoder Instruction).run (c.advance 4)
      = (result, c') := by
  have hbody : ((holdingActions limits make).body h).run c
      = (Decoder.skip 4 >>= fun _ => (do return make (← Sequence.decode limits) :
        Decoder Instruction)).run c := rfl
  rw [hbody] at hrun
  -- where the padding is cut short, the failure is another
  rcases Decoder.run_skip_cases 4 c with hskip | hskip
  · rw [Decoder.run_bind_ok hskip] at hrun
    exact hrun
  · rw [Decoder.run_bind_error hskip] at hrun
    obtain ⟨rfl, -⟩ := Prod.mk.inj hrun
    exact absurd rfl (hresult _ rfl)

theorem firstUnknown?_of_holdingActions_ok {make : List Action → Instruction} {i : Instruction}
    (hrun : ((holdingActions limits make).body h).run c = (.ok i, c')) :
    Action.family.firstUnknown? (c.advance 4) = none ∧ ∃ as, make as = i := by
  have hactions := run_holdingActions make hrun (by simp)
  obtain ⟨as, hmany, hmake⟩ := Decoder.run_bind_pure_iff.1 hactions
  rw [decode_actions_eq] at hmany
  exact ⟨Action.describes_family.firstUnknown?_of_ok hmany, as, hmake⟩

theorem firstUnknown?_of_holdingActions_unknown {make : List Action → Instruction}
    {e : DecodeError} {n : Nat}
    (hrun : ((holdingActions limits make).body h).run c = (.error e, c'))
    (hcode : e.unknownCode? = some n) :
    Action.family.firstUnknown? (c.advance 4) = some n := by
  have hactions := run_holdingActions make hrun (by
    rintro _ ⟨⟩ hnone
    simp [hnone] at hcode)
  have hmany := Decoder.run_bind_pure_error_iff.1 hactions
  rw [decode_actions_eq] at hmany
  exact Action.describes_family.firstUnknown?_of_unknown rfl hmany hcode

end HoldingActions

/-- The bodies of other instructions are read without a look at a kind. -/
theorem recognizes_layout {limits : Limits} {k : InstructionKind} {layout : Layout Instruction}
    (hlayout : layout? limits k = some layout) (hk : k.holdsActions = false) (h : Header) :
    (layout.body h).Recognizes (·.kind = k) := by
  cases k with
  | writeActions | applyActions => simp [InstructionKind.holdsActions] at hk
  | experimenter => simp [layout?] at hlayout
  | gotoTable =>
    obtain rfl := Option.some.inj hlayout
    exact Decoder.recognizes_u8.map fun _ _ => rfl
  | writeMetadata =>
    obtain rfl := Option.some.inj hlayout
    refine (Decoder.recognizes_skip 4).bind fun _ _ => ?_
    exact Decoder.recognizes_u64.bind fun _ _ => Decoder.recognizes_u64.map fun _ _ => rfl
  | clearActions =>
    obtain rfl := Option.some.inj hlayout
    exact Decoder.recognizes_pure rfl
  | meter =>
    obtain rfl := Option.some.inj hlayout
    exact Decoder.recognizes_u32.map fun _ _ => rfl

/-! ## Instructions of every kind -/

theorem unknownAction?_eq {h : Header} {body : Octets} {stride : Nat} {k : InstructionKind}
    (hkind : InstructionKind.ofCode? h.code = some k) :
    unknownAction? ⟨h, body, stride⟩ = if k.holdsActions then
      Action.family.firstUnknown? ((⟨headerLength, body⟩ : Cursor).advance 4) else none := by
  unfold unknownAction? RawRecord.inside
  rw [hkind]
  rfl

theorem describes_family (limits : Limits) :
    (format limits).Describes family (·.kind.code) where
  element_eq := rfl
  framing_eq := rfl
  knows_eq n := by
    show ((InstructionKind.ofCode? n).bind (layout? limits)).isSome
      = (InstructionKind.ofCode? n).any _
    cases InstructionKind.ofCode? n with
    | none => rfl
    | some k => cases k <;> rfl
  value := by
    intro h body layout i hlayout hbody
    obtain ⟨k, hkind, hk⟩ := Option.bind_eq_some_iff.1 hlayout
    have hcode := InstructionKind.code_of_ofCode? hkind
    have hrun : (layout.body h).run ⟨headerLength, body⟩ = (.ok i, _) := Prod.ext hbody rfl
    by_cases hholds : k.holdsActions = true
    · obtain ⟨make, rfl, hmake⟩ := layout?_of_holdsActions hk hholds
      obtain ⟨hnone, as, rfl⟩ := firstUnknown?_of_holdingActions_ok hrun
      refine ⟨?_, ?_⟩
      · rw [hmake, hcode]
      · exact (unknownAction?_eq hkind).trans ((if_pos hholds).trans hnone)
    · have hnot := eq_false_of_ne_true hholds
      have hi : i.kind = k := (recognizes_layout hk hnot h).value hrun
      refine ⟨?_, ?_⟩
      · rw [hi, hcode]
      · exact (unknownAction?_eq hkind).trans (if_neg hholds)
  failure := by
    intro h body layout e n hlayout hbody hunknown
    obtain ⟨k, hkind, hk⟩ := Option.bind_eq_some_iff.1 hlayout
    have hrun : (layout.body h).run ⟨headerLength, body⟩ = (.error e, _) := Prod.ext hbody rfl
    refine ⟨rfl, ?_⟩
    by_cases hholds : k.holdsActions = true
    · obtain ⟨make, rfl, -⟩ := layout?_of_holdsActions hk hholds
      have hsome := firstUnknown?_of_holdingActions_unknown hrun hunknown
      exact (unknownAction?_eq hkind).trans ((if_pos hholds).trans hsome)
    · have hnone := (recognizes_layout hk (eq_false_of_ne_true hholds) h).failure hrun
      simp [hnone] at hunknown

end Instruction

end OpenFlow
