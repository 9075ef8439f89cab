import OpenFlow.Oxm.Field
import OpenFlow.Proofs.Oxm.Header

set_option autoImplicit false

/-! # Match fields as they are written and read

A field is read back from its octets as it was, mask included, whatever comes after it
(`Field.reads_decode`). Its length is that of its octets, is at most thirty-six, and a field with a
header that its kind announces is never taken for one of another kind. On octets that nobody has
written there is little that reading can come to (`Field.run_decode_cases`): the decoder finds the
kind in the header, and with it the length that the field must have. -/

namespace OpenFlow

/-! ## Values -/

namespace Value

variable {s : Shape}

@[simp] theorem length_octets (v : Value s) : v.octets.length = s.width :=
  length_bigEndian s.width v.toNat

theorem toNat_lt (v : Value s) : v.toNat < Nat.pow 256 s.width := by
  have hoctets : 2 ^ (8 * s.width) = (2 ^ 8) ^ s.width := Nat.pow_mul 2 8 s.width
  calc v.toNat < 2 ^ (8 * s.width) := v.isLt
    _ = Nat.pow 256 s.width := hoctets

theorem reads_read (v : Value s) : (read s).Reads v.octets v := by
  have h := (Decoder.reads_word_bigEndian s.width v.toNat (toNat_lt v)).map
    fun n => BitVec.ofNat (8 * s.width) n
  rwa [BitVec.ofNat_toNat, BitVec.setWidth_eq] at h

theorem hasWidth_read (s : Shape) : (read s).HasWidth s.width :=
  (Decoder.hasWidth_word s.width).map

end Value

theorem Shape.width_le (s : Shape) : s.width ≤ 16 := by
  cases s <;> decide

namespace Field

/-! ## Lengths -/

/-- The octets of the mask, if there is one. -/
def maskOctets (f : Field) : Octets :=
  match f.mask with
  | some mask => mask.octets
  | none => []

theorem octets_eq (f : Field) : f.octets = f.header.octets ++ (f.value.octets ++ f.maskOctets) :=
  List.append_assoc _ _ _

/-- What follows the header is as long as the header says. -/
theorem payloadLength_header (f : Field) :
    f.header.payloadLength = (f.value.octets ++ f.maskOctets).length := by
  obtain ⟨kind, value, mask⟩ := f
  cases mask with
  | none => simp [header, hasMask, maskOctets, OxmKind.payloadLength]
  | some mask => simp [header, hasMask, maskOctets, OxmKind.payloadLength, Nat.two_mul]

theorem length_eq_header (f : Field) : f.length = OxmHeader.width + f.header.payloadLength := by
  rw [header, OxmKind.payloadLength_header]
  rfl

@[simp] theorem length_octets (f : Field) : f.octets.length = f.length := by
  rw [octets_eq, List.length_append, OxmHeader.length_octets, ← payloadLength_header,
    length_eq_header]

theorem length_le (f : Field) : f.length ≤ 36 := by
  have hwidth := f.kind.shape.width_le
  unfold length OxmKind.encodedLength OxmKind.payloadLength OxmHeader.width
  split
  · omega
  · omega

theorem length_pos (f : Field) : 0 < f.length := by
  rw [length_eq_header, OxmHeader.width]
  omega

theorem octets_ne_nil (f : Field) : f.octets ≠ [] := by
  apply List.length_pos_iff.1
  rw [length_octets]
  exact f.length_pos

/-! ## Reading back -/

theorem opens (f : Field) (tail : Octets) :
    f.header.Opens (f.value.octets ++ f.maskOctets) tail (f.octets ++ tail) := by
  refine ⟨?_, f.payloadLength_header⟩
  rw [octets_eq, List.append_assoc]

theorem readsBefore_expect (f : Field) (tail : Octets) :
    OxmHeader.expect.ReadsBefore (f.octets ++ tail) [] f.header := by
  intro pos
  exact OxmHeader.run_expect (f.opens tail)

/-- Reads the mask after the value, if one is announced. -/
theorem reads_mask (f : Field) :
    (if f.header.hasMask = true then do
        let mask ← Value.read f.kind.shape
        return ⟨f.kind, f.value, some mask⟩
      else return ⟨f.kind, f.value, none⟩ : Decoder Field).Reads f.maskOctets f := by
  obtain ⟨kind, value, mask⟩ := f
  cases mask with
  | none =>
    rw [if_neg (by simp [header, hasMask])]
    exact Decoder.reads_pure _
  | some mask =>
    rw [if_pos (by simp [header, hasMask])]
    exact (Value.reads_read mask).map fun mask => (⟨kind, value, some mask⟩ : Field)

/-- A decoder of one kind reads the fields of that kind. -/
theorem reads_decodeAs (f : Field) : (decodeAs f.kind).Reads f.octets f := by
  intro tail
  -- the checks that come before reading pass on the header of the field
  have htype : ¬ f.header.oxmType ≠ f.kind.oxmType := by
    rw [header, OxmKind.oxmType_header]
    exact fun h => h rfl
  have hlength : ¬ f.header.payloadLength ≠ f.kind.payloadLength f.header.hasMask := by
    rw [header, OxmKind.payloadLength_header, OxmKind.hasMask_header]
    exact fun h => h rfl
  have hskip : (Decoder.skip OxmHeader.width).Reads f.header.octets () :=
    Decoder.reads_skip f.header.length_octets
  unfold decodeAs
  refine Decoder.ReadsBefore.bind_nil (f.readsBefore_expect tail) ?_
  show (if f.header.oxmType ≠ f.kind.oxmType then _ else _ : Decoder Field).ReadsBefore _ _ _
  rw [if_neg htype]
  show (if f.header.payloadLength ≠ f.kind.payloadLength f.header.hasMask then _ else _ :
    Decoder Field).ReadsBefore _ _ _
  rw [if_neg hlength, octets_eq]
  exact (hskip.bind ((Value.reads_read f.value).bind f.reads_mask)) tail

/-- The decoder of all kinds reads a field back from its octets. -/
theorem reads_decode (f : Field) : decode.Reads f.octets f := by
  intro tail
  have hkind : OxmKind.ofHeader? f.header = some f.kind := OxmKind.ofHeader?_header f.kind _
  unfold decode
  refine Decoder.ReadsBefore.bind_nil (f.readsBefore_expect tail) ?_
  simp only [hkind]
  exact f.reads_decodeAs tail

/-! ## What reading comes to -/

/-- Reads the value of a field, and the mask if there is one. -/
def readPayload (k : OxmKind) (hasMask : Bool) : Decoder Field := do
  let value ← Value.read k.shape
  if hasMask then
    let mask ← Value.read k.shape
    return ⟨k, value, some mask⟩
  else
    return ⟨k, value, none⟩

/-- A field of one kind is refused for its header, or read from what comes after it. -/
theorem run_decodeAs (k : OxmKind) {h : OxmHeader} {payload tail : Octets} {c : Cursor}
    (ho : h.Opens payload tail c.rest) :
    (decodeAs k).run c =
      if h.oxmType ≠ k.oxmType then (.error (.kindMismatch .oxmField k.oxmType h.oxmType), c)
      else if h.payloadLength ≠ k.payloadLength h.hasMask then
        (.error (.invalidLength .oxmField h.oxmType h.payloadLength), c)
      else (readPayload k h.hasMask).run (c.advance OxmHeader.width) := by
  unfold decodeAs
  rw [Decoder.run_bind_ok (OxmHeader.run_expect ho)]
  show (if h.oxmType ≠ k.oxmType then _ else _ : Decoder Field).run c = _
  by_cases htype : h.oxmType ≠ k.oxmType
  · rw [if_pos htype, if_pos htype]
    rfl
  · rw [if_neg htype, if_neg htype]
    show (if h.payloadLength ≠ k.payloadLength h.hasMask then _ else _ : Decoder Field).run c = _
    by_cases hlength : h.payloadLength ≠ k.payloadLength h.hasMask
    · rw [if_pos hlength, if_pos hlength]
      rfl
    · rw [if_neg hlength, if_neg hlength]
      exact Decoder.run_bind_ok (Decoder.run_skip_of_le (Nat.le_of_add_right_le ho.length_le))

/-- Value and mask are as long as the header has to say. -/
theorem hasWidth_readPayload (k : OxmKind) (hasMask : Bool) :
    (readPayload k hasMask).HasWidth (k.payloadLength hasMask) := by
  have hvalue := Value.hasWidth_read k.shape
  cases hasMask with
  | false => exact hvalue.map
  | true =>
    show (readPayload k true).HasWidth (2 * k.shape.width)
    rw [Nat.two_mul]
    exact hvalue.bind fun value => hvalue.map

theorem run_decode_of_foreign {h : OxmHeader} {payload tail : Octets} {c : Cursor}
    (ho : h.Opens payload tail c.rest) (hkind : OxmKind.ofHeader? h = none) :
    decode.run c = (.error (.unknownKind .oxmField h.oxmType (OxmHeader.width + h.payloadLength)),
      c.advance (OxmHeader.width + h.payloadLength)) := by
  unfold decode
  rw [Decoder.run_bind_ok (OxmHeader.run_expect ho), hkind]
  exact Decoder.run_bind_ok (Decoder.run_skip_of_le ho.length_le)

/-- What reading a field comes to: none is there, or one that is not of the protocol is stepped
    over, or one of the protocol is refused for its length or read to its end. -/
theorem run_decode_cases (c : Cursor) :
    (∃ needed, c.rest.length < needed
      ∧ decode.run c = (.error (.truncated .oxmField needed c.rest.length), c))
    ∨ ∃ (h : OxmHeader) (payload tail : Octets), h.Opens payload tail c.rest
      ∧ ((OxmKind.ofHeader? h = none ∧ decode.run c
          = (.error (.unknownKind .oxmField h.oxmType (OxmHeader.width + h.payloadLength)),
            c.advance (OxmHeader.width + h.payloadLength)))
        ∨ (OxmKind.ofHeader? h ≠ none
          ∧ (decode.run c = (.error (.invalidLength .oxmField h.oxmType h.payloadLength), c)
            ∨ ∃ f, decode.run c = (.ok f, c.advance (OxmHeader.width + h.payloadLength))))) := by
  rcases OxmHeader.expect_cases c with ⟨needed, hneeded, hexpect⟩ | ⟨h, payload, tail, ho, hexpect⟩
  · exact .inl ⟨needed, hneeded, Decoder.run_bind_error hexpect⟩
  · refine .inr ⟨h, payload, tail, ho, ?_⟩
    cases hkind : OxmKind.ofHeader? h with
    | none => exact .inl ⟨rfl, run_decode_of_foreign ho hkind⟩
    | some k =>
      refine .inr ⟨Option.some_ne_none k, ?_⟩
      -- the kind was looked up by the type, so only the length can be wrong
      have htype := OxmKind.oxmType_of_ofHeader? hkind
      have hle := ho.length_le
      rw [decode, Decoder.run_bind_ok hexpect, hkind]
      show (decodeAs k).run c = _ ∨ ∃ f, (decodeAs k).run c = _
      rw [run_decodeAs k ho, if_neg (not_not_intro htype)]
      by_cases hlength : h.payloadLength = k.payloadLength h.hasMask
      · have hroom : k.payloadLength h.hasMask ≤ (c.advance OxmHeader.width).rest.length := by
          rw [← hlength, Cursor.rest_advance, List.length_drop]
          omega
        obtain ⟨f, hf⟩ := hasWidth_readPayload k h.hasMask _ hroom
        rw [if_neg (not_not_intro hlength), hf, Cursor.advance_advance, hlength]
        exact .inr ⟨f, rfl⟩
      · rw [if_pos hlength]
        exact .inl rfl

end Field

end OpenFlow
