import OpenFlow.Proofs.Oxm.Header

set_option autoImplicit false

/-! # What octets announce

Every decoder of a family begins with a look at the header of the next record. What comes of it can
be told from the octets alone: the code of the record, or what is wrong with its header. `announced`
tells it without a decoder, for elements and for match fields, and `announced_cases` says that it is
what the look comes to: a record that is announced is there in full, and after an error the cursor
stands where it stood. -/

namespace OpenFlow

/-! ## Elements -/

namespace Header

/-- The code of the element that the octets begin with, or what is wrong with its header. -/
def announced (e : Element) (bs : Octets) : Except DecodeError Nat :=
  let code := Octets.toNat (bs.take 2)
  let size := Octets.toNat ((bs.drop 2).take 2)
  if bs.length < headerLength then .error (.truncated e headerLength bs.length)
  else if size < headerLength then .error (.invalidLength e code size)
  else if bs.length < size then .error (.truncated e size bs.length)
  else .ok code

theorem announced_octets (e : Element) (h : Header) (rest : Octets) :
    announced e (h.octets ++ rest) =
      if h.size < headerLength then .error (.invalidLength e h.code h.size)
      else if (h.octets ++ rest).length < h.size then
        .error (.truncated e h.size (h.octets ++ rest).length)
      else .ok h.code := by
  have hkind : h.code < Nat.pow 256 2 := h.kind.toNat_lt
  have hlength : h.size < Nat.pow 256 2 := h.length.toNat_lt
  have hcode : Octets.toNat ((h.octets ++ rest).take 2) = h.code := by
    rw [octets, List.append_assoc, List.take_left' (length_bigEndian 2 _),
      toNat_bigEndian_of_lt 2 h.code hkind]
  have hsize : Octets.toNat (((h.octets ++ rest).drop 2).take 2) = h.size := by
    rw [octets, List.append_assoc, List.drop_left' (length_bigEndian 2 _),
      List.take_left' (length_bigEndian 2 _), toNat_bigEndian_of_lt 2 h.size hlength]
  have hlong : ¬ (h.octets ++ rest).length < headerLength := by
    rw [List.length_append, length_octets]
    exact Nat.not_lt.2 (Nat.le_add_right _ _)
  unfold announced
  rw [hcode, hsize, if_neg hlong]

/-- Looking for a header answers what is announced. -/
theorem run_expect_announced (e : Element) (c : Cursor) :
    ((expect e).run c).1.map code = announced e c.rest := by
  by_cases hshort : c.rest.length < headerLength
  · rw [run_expect_of_short hshort, announced, if_pos hshort]
    rfl
  · obtain ⟨h, after, hrest⟩ := exists_octets c.rest (Nat.le_of_not_lt hshort)
    rw [run_expect_octets hrest, hrest, announced_octets]
    split
    · rfl
    split <;> rfl

/-- An element is announced and there in full, or looking for one finds what is wrong. -/
theorem announced_cases (e : Element) (c : Cursor) :
    (∃ (h : Header) (body tail : Octets), h.Opens body tail c.rest
      ∧ announced e c.rest = .ok h.code)
    ∨ ∃ failure, announced e c.rest = .error failure
      ∧ (expect e).run c = (.error failure, c) := by
  have hannounced := run_expect_announced e c
  rcases expect_cases e c with ⟨n, -, hrun⟩ | ⟨h, rest, -, -, hrun⟩ | ⟨h, body, tail, ho, hrun⟩
  · rw [hrun] at hannounced
    exact .inr ⟨_, hannounced.symm, hrun⟩
  · rw [hrun] at hannounced
    exact .inr ⟨_, hannounced.symm, hrun⟩
  · rw [hrun] at hannounced
    exact .inl ⟨h, body, tail, ho, hannounced.symm⟩

end Header

/-! ## Match fields -/

namespace OxmHeader

/-- The type of the match field that the octets begin with, or what is wrong with its header. -/
def announced (bs : Octets) : Except DecodeError Nat :=
  let h : OxmHeader := ⟨UInt32.ofNat (Octets.toNat (bs.take width))⟩
  if bs.length < width then .error (.truncated .oxmField width bs.length)
  else if bs.length < width + h.payloadLength then
    .error (.truncated .oxmField (width + h.payloadLength) bs.length)
  else .ok h.oxmType

theorem announced_octets (h : OxmHeader) (rest : Octets) :
    announced (h.octets ++ rest) =
      if (h.octets ++ rest).length < width + h.payloadLength then
        .error (.truncated .oxmField (width + h.payloadLength) (h.octets ++ rest).length)
      else .ok h.oxmType := by
  have hraw : (⟨UInt32.ofNat (Octets.toNat ((h.octets ++ rest).take width))⟩ : OxmHeader) = h := by
    rw [List.take_left' h.length_octets, octets,
      toNat_bigEndian_of_lt width h.raw.toNat h.raw.toNat_lt, UInt32.ofNat_toNat]
  have hlong : ¬ (h.octets ++ rest).length < width := by
    rw [List.length_append, length_octets]
    exact Nat.not_lt.2 (Nat.le_add_right _ _)
  unfold announced
  rw [hraw, if_neg hlong]

/-- Looking for a match field answers what is announced. -/
theorem run_expect_announced (c : Cursor) : (expect.run c).1.map oxmType = announced c.rest := by
  by_cases hshort : c.rest.length < width
  · rw [run_expect_of_short hshort, announced, if_pos hshort]
    rfl
  · obtain ⟨h, after, hrest⟩ := exists_octets c.rest (Nat.le_of_not_lt hshort)
    rw [run_expect_octets hrest, hrest, announced_octets]
    split <;> rfl

/-- A match field is announced and there in full, or looking for one finds what is wrong. -/
theorem announced_cases (c : Cursor) :
    (∃ (h : OxmHeader) (payload tail : Octets), h.Opens payload tail c.rest
      ∧ announced c.rest = .ok h.oxmType)
    ∨ ∃ failure, announced c.rest = .error failure ∧ expect.run c = (.error failure, c) := by
  have hannounced := run_expect_announced c
  rcases expect_cases c with ⟨n, -, hrun⟩ | ⟨h, payload, tail, ho, hrun⟩
  · rw [hrun] at hannounced
    exact .inr ⟨_, hannounced.symm, hrun⟩
  · rw [hrun] at hannounced
    exact .inl ⟨h, payload, tail, ho, hannounced.symm⟩

end OxmHeader

end OpenFlow
