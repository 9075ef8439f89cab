import OpenFlow.Proofs.Octets.Trail
import OpenFlow.Proofs.Recoding.Instruction
import OpenFlow.Proofs.Recoding.Property
import OpenFlow.Proofs.Skipping.Instruction
import OpenFlow.Proofs.Skipping.Property

set_option autoImplicit false

/-! # Entries do not touch their neighbours

What sequences of records have in common is owed to three facts about one record, whichever its
family (`Detached`): where it stands does not matter, its value comes from the octets that it takes
and no others, and whenever a loop goes on behind it, because it was read or because it was stepped
over, it has taken an octet at least. -/

namespace OpenFlow

open Decoder

variable {α : Type}

/-- Reading a record is decided by its own octets, and gets on. -/
structure Detached (α : Type) [Record α] (limits : Limits) : Prop where
  steady : (Record.decode limits : Decoder α).Steady
  confined : (Record.decode limits : Decoder α).Confined
  consumes_known : (known (Record.decode limits : Decoder α)).Consumes

theorem Detached.consumes [Record α] {limits : Limits} (h : Detached α limits) :
    (Record.decode limits : Decoder α).Consumes :=
  h.consumes_known.of_known

/-! ## Getting on -/

namespace Decoder

variable {d : Decoder α}

theorem Consumes.known (hd : d.Consumes)
    (hunknown : ∀ {c c' : Cursor} {e : DecodeError}, d.run c = (.error e, c') →
      e.unknownCode? ≠ none → c'.remaining < c.remaining) : (known d).Consumes := by
  intro c x c' hrun
  rcases run_known_cases hrun with ⟨a, rfl, hok⟩ | ⟨e, code, rfl, herror, hcode⟩
  · exact hd c a c' hok
  · exact hunknown herror (by simp [hcode])

/-- Nothing is stepped over by a decoder that knows all it reads. -/
theorem Recognizes.consumes_known {P : α → Prop} (hr : d.Recognizes P) (hd : d.Consumes) :
    (Decoder.known d).Consumes :=
  hd.known fun herror hunknown => absurd (hr.failure herror) hunknown

end Decoder

/-! ## Records behind a header -/

theorem RecordFormat.Describes.detached [Record α] {limits : Limits} {F : RecordFormat α}
    {G : RecordFamily} {code : α → Nat} (hF : F.Describes G code)
    (hdecode : (Record.decode limits : Decoder α) = F.decode)
    (hconfined : (Record.decode limits : Decoder α).Confined) : Detached α limits where
  steady := by
    rw [hdecode]
    exact F.steady_decode
  confined := hconfined
  consumes_known := by
    rw [hdecode]
    exact hF.consumes_known

theorem Action.detached (limits : Limits) : Detached Action limits :=
  describes_family.detached decode_eq (follows limits).confined

theorem Instruction.detached (limits : Limits) : Detached Instruction limits :=
  (describes_family limits).detached (decode_eq limits) (follows limits).confined

theorem QueueProperty.detached (limits : Limits) : Detached QueueProperty limits :=
  describes_family.detached decode_eq (follows limits).confined

theorem TableProperty.detached (limits : Limits) : Detached TableProperty limits :=
  (describes_family limits).detached (decode_eq limits) (follows limits).confined

/-! ## Buckets -/

/-- A bucket is cut out before the actions in it are read, so an unknown one is passed with it. -/
theorem Bucket.detached (limits : Limits) : Detached Bucket limits where
  steady := steady_measured .bucket headerLength 0 _
  confined := (follows limits).confined
  consumes_known := by
    refine (consumes limits).known ?_
    intro c c' e herror hunknown
    rcases run_measured_cases (α := Bucket) .bucket (show 0 + 2 ≤ headerLength by decide) c with
      ⟨error, hknown, hrun⟩ | ⟨chunk, tail, hrest, hleast, -, hrun⟩
    · obtain ⟨he, -⟩ := Prod.mk.inj (herror.symm.trans (hrun _))
      exact absurd (Except.error.inj he ▸ hknown) hunknown
    · obtain ⟨-, rfl⟩ := Prod.mk.inj (herror.symm.trans (hrun _))
      have hpos : 0 < headerLength := by decide
      have hlength : c.remaining = chunk.length + tail.length := by
        rw [Cursor.remaining, hrest, List.length_append]
      rw [Cursor.remaining_advance]
      omega

/-! ## Match fields -/

theorem OxmHeader.steady_expect : expect.Steady := by
  have hread : read.Steady := steady_u32.map
  refine (steady_need .oxmField width).bind fun _ => hread.ahead.bind fun h => ?_
  exact (steady_need .oxmField _).map

theorem Field.steady_decodeAs (k : OxmKind) : (decodeAs k).Steady := by
  have hvalue : (Value.read k.shape).Steady := (steady_word k.shape.width).map
  refine OxmHeader.steady_expect.bind fun h => ?_
  refine steady_ite (steady_fail_bind _) (steady_ite (steady_fail_bind _) ?_)
  refine (steady_skip _).bind fun _ => hvalue.bind fun value => ?_
  exact steady_ite hvalue.map (steady_pure _)

theorem Field.steady_decode : decode.Steady := by
  refine OxmHeader.steady_expect.bind fun h => ?_
  split
  · exact steady_decodeAs _
  · exact (steady_skip _).bind fun _ => steady_fail _

theorem Field.detached (limits : Limits) : Detached Field limits where
  steady := steady_decode
  confined := (follows limits).confined
  consumes_known := by
    refine (consumes limits).known ?_
    intro c c' e herror hunknown
    rcases run_decode_cases c with
      ⟨n, -, hcase⟩ | ⟨h, payload, tail, ho, ⟨-, hcase⟩ | ⟨-, hcase | ⟨f, hcase⟩⟩⟩
    · cases hcase.symm.trans herror
      exact absurd rfl hunknown
    · cases hcase.symm.trans herror
      have hlength := ho.length_le
      rw [Cursor.remaining_advance]
      simp only [Cursor.remaining, OxmHeader.width] at *
      omega
    · cases hcase.symm.trans herror
      exact absurd rfl hunknown
    · cases hcase.symm.trans herror

/-! ## Ids -/

theorem KindId.steady_decode {family : KindFamily} : (decode : Decoder (KindId family)).Steady :=
  (Header.steady_expect _).bind fun _ => steady_ite (steady_element _ _ _) (steady_element _ _ _)

theorem OxmId.steady_decode : decode.Steady := by
  have hread : OxmHeader.read.Steady := steady_u32.map
  refine (steady_need .oxmId 4).bind fun _ => hread.ahead.bind fun h => ?_
  refine steady_ite ?_ (steady_skip 4).map
  exact (steady_need .oxmId 8).bind fun _ => (steady_skip 4).bind fun _ => steady_u32.map

theorem IdSort.detached (limits : Limits) (s : IdSort) : Detached s.Id limits where
  steady := by
    cases s with
    | instruction => exact KindId.steady_decode
    | table => exact (steady_word 1).map.map
    | action => exact KindId.steady_decode
    | oxm => exact OxmId.steady_decode
  confined := (s.follows limits).confined
  consumes_known := (s.recognizes_decode limits).consumes_known (s.consumes limits)

end OpenFlow
