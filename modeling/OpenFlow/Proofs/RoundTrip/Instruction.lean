import OpenFlow.Instruction.Basic
import OpenFlow.Proofs.RoundTrip.Action

set_option autoImplicit false

/-! # Instructions are read back

An instruction that holds actions is as long as they are, so its length may not fit into its header.
Where it does, and there are no more actions than the limits allow, the instruction is read back
with its actions as they were (`Instruction.carries`). -/

namespace OpenFlow

theorem InstructionKind.code_lt (k : InstructionKind) : k.code < 65536 := by
  cases k <;> decide

namespace Instruction

/-- The actions that an instruction holds; most hold none. -/
def actions : Instruction → List Action
  | writeActions actions | applyActions actions => actions
  | _ => []

instance : Composite Instruction where
  lengthFields i := i.length :: Composite.lengthFields i.actions
  collections i := Composite.collections i.actions

theorem length_le_of_fit {i : Instruction} (h : LengthsFit i) : i.length ≤ 0xffff :=
  h i.length List.mem_cons_self

/-! ## Writing -/

/-- The octets after the header, where no length overflows. -/
def bodyOctets : Instruction → Octets
  | gotoTable tableId => bigEndian 1 tableId.toNat ++ zeros 3
  | writeMetadata metadata mask =>
    zeros 4 ++ bigEndian 8 metadata.toNat ++ bigEndian 8 mask.toNat
  | writeActions actions | applyActions actions => zeros 4 ++ actions.flatMap Action.octets
  | clearActions => zeros 4
  | meter meterId => bigEndian 4 meterId.toNat

/-- The octets of an instruction, where no length overflows. -/
def octets (i : Instruction) : Octets :=
  bigEndian 2 i.kind.code ++ bigEndian 2 i.length ++ i.bodyOctets

theorem writes_body (i : Instruction) : i.body.Writes i.bodyOctets := by
  have hactions (as : List Action) : (Encoding.ofOctets (zeros 4) ++ Sequence.encode as).Writes
      (zeros 4 ++ as.flatMap Action.octets) :=
    (Encoding.writes_ofOctets (zeros 4)).append (Encoding.writes_concat fun a _ => a.writes_encode)
  cases i with
  | writeActions as => exact hactions as
  | applyActions as => exact hactions as
  | _ => exact Encoding.writes_ofOctets _

theorem writes_encode {i : Instruction} (h : i.length ≤ 0xffff) : i.encode.Writes i.octets :=
  (Encoding.writes_header .instruction i.kind.code h).append i.writes_body

theorem length_eq_body (i : Instruction) : i.length = headerLength + i.bodyOctets.length := by
  have hactions (as : List Action) : (as.flatMap Action.octets).length = Sequence.length as :=
    Sequence.length_flatMap fun a _ => a.length_octets
  cases i with
  | writeActions as => simp [length, bodyOctets, headerLength, hactions, ← Nat.add_assoc]
  | applyActions as => simp [length, bodyOctets, headerLength, hactions, ← Nat.add_assoc]
  | _ => simp [length, bodyOctets, headerLength]

@[simp] theorem length_octets (i : Instruction) : i.octets.length = i.length :=
  Header.length_headed i.kind.code i.length_eq_body

theorem octets_ne_nil (i : Instruction) : i.octets ≠ [] := Header.headed_ne_nil _ _ _

/-! ## Reading back -/

/-- An instruction of one length is read back if its parameters are, which filler may come
    after. -/
theorem reads_fixed {i : Instruction} {size : Nat} {params filler : Octets}
    {d : Decoder Instruction} (hlt : size < 65536) (hsize : i.length = size)
    (hbody : i.bodyOctets = params ++ filler) (hd : d.Reads params i) :
    (Decoder.element .instruction i.kind.code (.fixed size d)).Reads i.octets i := by
  subst hsize
  exact Decoder.reads_fixed i.kind.code_lt hlt i.length_eq_body hbody hd

/-- An instruction that holds actions is read back up to its end, actions and all. -/
theorem reads_holdingActions {limits : Limits} {i : Instruction} {make : List Action → Instruction}
    {as : List Action} (hmake : make as = i)
    (hbody : i.bodyOctets = zeros 4 ++ as.flatMap Action.octets) (hlength : i.length ≤ 0xffff)
    (hcount : as.length ≤ limits.of .actions) :
    (Decoder.element .instruction i.kind.code (holdingActions limits make)).Reads i.octets i := by
  have hsequence : (do return make (← Sequence.decode limits) : Decoder Instruction).ReadsBefore []
      (as.flatMap Action.octets) i := by
    rw [← hmake]
    exact (Action.carriesAlone limits as hcount).reads.map make
  have hread := hsequence.after_zeros 4
  rw [← hbody] at hread
  have hleast : 8 ≤ i.length := by
    rw [length_eq_body, hbody, List.length_append, length_zeros, headerLength]
    omega
  exact Decoder.reads_atLeast i.kind.code_lt (Nat.lt_succ_of_le hlength) i.length_eq_body hleast
    hread

/-- A decoder of one kind reads the instructions of that kind. -/
theorem reads_decodeAs {limits : Limits} {i : Instruction} (hlength : i.length ≤ 0xffff)
    (hcount : i.actions.length ≤ limits.of .actions) :
    (decodeAs limits i.kind).Reads i.octets i := by
  cases i with
  | gotoTable tableId =>
    exact reads_fixed (by decide) rfl rfl ((Decoder.reads_u8 tableId).map gotoTable)
  | writeMetadata metadata mask =>
    have hmask := (Decoder.reads_u64 mask).map fun mask => writeMetadata metadata mask
    have hparams : (do
        let metadata ← Decoder.u64
        let mask ← Decoder.u64
        return writeMetadata metadata mask : Decoder Instruction).Reads
        (bigEndian 8 metadata.toNat ++ bigEndian 8 mask.toNat) (writeMetadata metadata mask) :=
      (Decoder.reads_u64 metadata).bind hmask
    have hbody : (writeMetadata metadata mask).bodyOctets
        = zeros 4 ++ (bigEndian 8 metadata.toNat ++ bigEndian 8 mask.toNat) ++ [] := by
      rw [bodyOctets, List.append_nil, List.append_assoc]
    exact reads_fixed (by decide) rfl hbody (hparams.after_zeros 4)
  | writeActions as => exact reads_holdingActions rfl rfl hlength hcount
  | applyActions as => exact reads_holdingActions rfl rfl hlength hcount
  | clearActions =>
    exact reads_fixed (by decide) rfl (List.nil_append _).symm (Decoder.reads_pure clearActions)
  | meter meterId =>
    exact reads_fixed (by decide) rfl (List.append_nil _).symm
      ((Decoder.reads_u32 meterId).map meter)

/-- The decoder of all kinds reads an instruction back from its octets. -/
theorem reads_decode {limits : Limits} {i : Instruction} (hlength : i.length ≤ 0xffff)
    (hcount : i.actions.length ≤ limits.of .actions) : (decode limits).Reads i.octets i := by
  refine Decoder.reads_expect_bind [] (List.append_nil _).symm i.kind.code_lt
    (Nat.lt_succ_of_le hlength) i.length_eq_body ?_
  simp only [Header.code_ofNats i.length i.kind.code_lt, InstructionKind.ofCode?_code]
  exact reads_decodeAs hlength hcount

theorem carries {limits : Limits} {i : Instruction} (hfit : LengthsFit i)
    (hlimits : limits.Admits i) : Carries limits i.octets i := by
  have hlength : i.length ≤ 0xffff := length_le_of_fit hfit
  have hactions : limits.Admits i.actions := hlimits
  exact ⟨writes_encode hlength, i.length_octets, reads_decode hlength hactions.length_le⟩

/-- A sequence of instructions is read back, if their lengths fit and there are not too many of
    them or of the actions in any. -/
theorem carriesAlone {limits : Limits} {is : List Instruction} (hfit : LengthsFit is)
    (hlimits : limits.Admits is) : CarriesAlone limits (is.flatMap octets) is :=
  Sequence.carriesAlone (fun _ hi => carries (hfit.of_mem hi) (hlimits.of_mem hi))
    (fun i _ => i.octets_ne_nil) hlimits.length_le

end Instruction

end OpenFlow
