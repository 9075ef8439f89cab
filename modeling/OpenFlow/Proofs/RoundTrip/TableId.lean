import OpenFlow.TableFeature.Property
import OpenFlow.Proofs.Oxm.Header
import OpenFlow.Proofs.Record

set_option autoImplicit false

/-! # Ids are read back

The ids in the features of a table come in four forms, of four octets, of one, of eight and of as
many as an experimenter likes. Which form an id has is told by its header, so an id is read back if
the header tells the truth: `SoundHeader` says so for each sort of ids. -/

namespace OpenFlow

/-! ## Actions and instructions -/

namespace KindId

variable {family : KindFamily}

/-- Only an experimenter's id has the code of experimenters. -/
def SoundHeader : KindId family → Prop
  | standard code => code ≠ experimenterCode
  | experimenter .. => True

instance : (id : KindId family) → Decidable id.SoundHeader
  | standard code => inferInstanceAs (Decidable (code ≠ experimenterCode))
  | experimenter .. => instDecidableTrue

/-- The octets of an id, where its length does not overflow. -/
def octets (id : KindId family) : Octets :=
  bigEndian 2 id.code.toNat ++ bigEndian 2 id.length ++ id.body

theorem length_eq_body (id : KindId family) : id.length = headerLength + id.body.length := by
  cases id with
  | standard code => rfl
  | experimenter number data => simp [length, body, Nat.add_assoc]

@[simp] theorem length_octets (id : KindId family) : id.octets.length = id.length :=
  Header.length_headed id.code.toNat id.length_eq_body

theorem octets_ne_nil (id : KindId family) : id.octets ≠ [] := Header.headed_ne_nil _ _ _

/-- The data of an experimenter's id takes up all that is left of it. -/
theorem reads_decodeExperimenter (number : UInt32) (data : Octets) :
    (decodeExperimenter : Decoder (KindId family)).ReadsBefore []
      (bigEndian 4 number.toNat ++ data) (experimenter number data) := by
  have hdata := (Decoder.readsBefore_remainder data).map
    fun data => (experimenter number data : KindId family)
  exact (Decoder.reads_u32 number).bindBefore hdata

/-- The code in the header tells the two forms of ids apart. -/
theorem reads_decode {id : KindId family} (hlength : id.length ≤ 0xffff) (h : id.SoundHeader) :
    decode.Reads id.octets id := by
  have hlt : id.length < 65536 := Nat.lt_succ_of_le hlength
  have hkind : (Header.ofNats id.code.toNat id.length).kind = id.code := UInt16.ofNat_toNat
  unfold decode
  refine Decoder.reads_expect_bind [] (List.append_nil _).symm id.code.toNat_lt hlt
    id.length_eq_body ?_
  show (if (Header.ofNats id.code.toNat id.length).kind = experimenterCode then _ else _ :
    Decoder (KindId family)).Reads _ _
  rw [Header.code_ofNats id.length id.code.toNat_lt, hkind]
  cases id with
  | standard code =>
    have hcode : (standard code : KindId family).code ≠ experimenterCode := h
    rw [if_neg hcode]
    exact Decoder.reads_fixed code.toNat_lt hlt (length_eq_body (standard code))
      (List.append_nil []).symm (Decoder.reads_pure _)
  | experimenter number data =>
    have hcode : (experimenter number data : KindId family).code = experimenterCode := rfl
    rw [if_pos hcode]
    exact Decoder.reads_atLeast (UInt16.toNat_lt _) hlt (length_eq_body _)
      (Nat.le_add_right (headerLength + 4) _) (reads_decodeExperimenter number data)

theorem writes_encode {id : KindId family} (hlength : id.length ≤ 0xffff) :
    id.encode.Writes id.octets :=
  (Encoding.writes_header family.element id.code.toNat hlength).append
    (Encoding.writes_ofOctets id.body)

theorem carries (limits : Limits) {id : KindId family} (hlength : id.length ≤ 0xffff)
    (h : id.SoundHeader) : Carries limits id.octets id :=
  ⟨writes_encode hlength, id.length_octets, reads_decode hlength h⟩

end KindId

/-! ## Match fields -/

namespace OxmId

/-- An id names an experimenter exactly if its header is of the class of experimenters. -/
def SoundHeader : OxmId → Prop
  | basic header => header.fieldClass ≠ OxmClass.experimenter.toNat
  | experimenter header _ => header.fieldClass = OxmClass.experimenter.toNat

instance : (id : OxmId) → Decidable id.SoundHeader
  | basic header => inferInstanceAs (Decidable (header.fieldClass ≠ _))
  | experimenter header _ => inferInstanceAs (Decidable (header.fieldClass = _))

@[simp] theorem length_octets (id : OxmId) : id.octets.length = id.length := by
  cases id with
  | basic header => simp [octets, length, OxmHeader.octets, OxmHeader.width]
  | experimenter header number => simp [octets, length, OxmHeader.octets, OxmHeader.width]

theorem octets_ne_nil (id : OxmId) : id.octets ≠ [] := by
  apply List.length_pos_iff.1
  rw [length_octets]
  cases id with
  | basic header => exact Nat.zero_lt_succ 3
  | experimenter header number => exact Nat.zero_lt_succ 7

/-- The class in the header tells the two forms of ids apart. -/
theorem reads_decode {id : OxmId} (h : id.SoundHeader) : decode.Reads id.octets id := by
  intro tail
  unfold decode
  cases id with
  | basic header =>
    have hclass : header.fieldClass ≠ OxmClass.experimenter.toNat := h
    have hskip : (Decoder.skip 4).Reads header.octets () := Decoder.reads_skip header.length_octets
    refine Decoder.ReadsBefore.bind_nil (Decoder.readsBefore_need ?_) ?_
    · rw [List.length_append, length_octets]
      exact Nat.le_add_right 4 _
    · refine Decoder.ReadsBefore.bind_nil
        (Decoder.readsBefore_ahead (OxmHeader.reads_read header tail)) ?_
      rw [if_neg hclass]
      exact (hskip.map fun _ => basic header) tail
  | experimenter header number =>
    have hclass : header.fieldClass = OxmClass.experimenter.toNat := h
    -- both looks ahead see the whole id, the header is passed after them
    have hskip : (Decoder.skip 4).Reads header.octets () := Decoder.reads_skip header.length_octets
    have hnumber := (Decoder.reads_u32 number).map (experimenter header)
    have hall : 8 ≤ ((experimenter header number).octets ++ tail).length := by
      rw [List.length_append, length_octets]
      exact Nat.le_add_right 8 _
    refine Decoder.ReadsBefore.bind_nil
      (Decoder.readsBefore_need (Nat.le_trans (by decide) hall)) ?_
    refine Decoder.ReadsBefore.bind_nil (a := header) ?_ ?_
    · rw [octets, List.append_assoc]
      exact Decoder.readsBefore_ahead (OxmHeader.reads_read header _)
    · rw [if_pos hclass]
      exact Decoder.ReadsBefore.bind_nil (Decoder.readsBefore_need hall)
        ((hskip.bind hnumber) tail)

theorem carries (limits : Limits) {id : OxmId} (h : id.SoundHeader) :
    Carries limits id.octets id :=
  ⟨rfl, id.length_octets, reads_decode h⟩

end OxmId

/-! ## Tables -/

namespace TableId

/-- The one octet of an id. -/
def octets (id : TableId) : Octets := [id.number]

theorem octets_eq (id : TableId) : id.octets = bigEndian 1 id.number.toNat := by
  have hone := bigEndian_toNat [id.number]
  rw [Octets.toNat, Octets.toNatFrom, Nat.zero_mul, Nat.zero_add] at hone
  exact hone.symm

theorem carries (limits : Limits) (id : TableId) : Carries limits id.octets id := by
  refine ⟨rfl, rfl, ?_⟩
  rw [octets_eq]
  exact (Decoder.reads_u8 id.number).map TableId.mk

end TableId

/-! ## All sorts -/

namespace IdSort

/-- The octets of an id of any sort, where its length does not overflow. -/
def octets : (s : IdSort) → s.Id → Octets
  | .instruction, id => KindId.octets id
  | .table, id => TableId.octets id
  | .action, id => KindId.octets id
  | .oxm, id => OxmId.octets id

/-- The header of an id tells the form that the id has. -/
def SoundHeader : (s : IdSort) → s.Id → Prop
  | .instruction, id => KindId.SoundHeader id
  | .table, _ => True
  | .action, id => KindId.SoundHeader id
  | .oxm, id => OxmId.SoundHeader id

instance : (s : IdSort) → (id : s.Id) → Decidable (s.SoundHeader id)
  | .instruction, (id : InstructionId) => inferInstanceAs (Decidable id.SoundHeader)
  | .table, _ => instDecidableTrue
  | .action, (id : ActionId) => inferInstanceAs (Decidable id.SoundHeader)
  | .oxm, (id : OxmId) => inferInstanceAs (Decidable id.SoundHeader)

theorem length_octets (s : IdSort) (id : s.Id) : (s.octets id).length = Record.length id := by
  cases s with
  | instruction => exact KindId.length_octets id
  | table => rfl
  | action => exact KindId.length_octets id
  | oxm => exact OxmId.length_octets id

theorem octets_ne_nil (s : IdSort) (id : s.Id) : s.octets id ≠ [] := by
  cases s with
  | instruction => exact KindId.octets_ne_nil id
  | table => exact List.cons_ne_nil _ _
  | action => exact KindId.octets_ne_nil id
  | oxm => exact OxmId.octets_ne_nil id

/-- An id is written as it is, whether its header is sound or not. -/
theorem writes_encode (s : IdSort) {id : s.Id} (hlength : Record.length id ≤ 0xffff) :
    (Record.encode id).Writes (s.octets id) := by
  cases s with
  | instruction => exact KindId.writes_encode hlength
  | table => exact Encoding.writes_ofOctets _
  | action => exact KindId.writes_encode hlength
  | oxm => exact Encoding.writes_ofOctets _

theorem carries (limits : Limits) (s : IdSort) {id : s.Id} (hlength : Record.length id ≤ 0xffff)
    (h : s.SoundHeader id) : Carries limits (s.octets id) id := by
  cases s with
  | instruction => exact KindId.carries limits hlength h
  | table => exact TableId.carries limits id
  | action => exact KindId.carries limits hlength h
  | oxm => exact OxmId.carries limits h

end IdSort

end OpenFlow
