import OpenFlow.Oxm.Kind
import OpenFlow.Proofs.Framing

set_option autoImplicit false

/-! # Match fields cut out by their headers

The header of a match field counts only what follows it. `h.Opens payload tail bs` says that the
octets `bs` begin with a match field of the header `h`, and `OxmHeader.expect_cases` tells all that
looking for one can come to. A header that a kind of field writes announces that kind, its length
and its mask. -/

namespace OpenFlow

namespace OxmHeader

/-! ## Headers as octets -/

@[simp] theorem length_octets (h : OxmHeader) : h.octets.length = width := by
  simp [octets, width]

theorem reads_read (h : OxmHeader) : read.Reads h.octets h :=
  (Decoder.reads_u32 h.raw).map OxmHeader.mk

/-- Any four octets are a header. -/
theorem exists_octets (bs : Octets) (h : width ≤ bs.length) :
    ∃ (header : OxmHeader) (rest : Octets), bs = header.octets ++ rest := by
  have hfirst : (bs.take 4).length = 4 := by
    rw [List.length_take]
    exact Nat.min_eq_left h
  have hraw : bigEndian 4 (UInt32.ofNat (Octets.toNat (bs.take 4))).toNat = bs.take 4 :=
    bigEndian_toNat_mod hfirst
  refine ⟨⟨UInt32.ofNat (Octets.toNat (bs.take 4))⟩, bs.drop 4, ?_⟩
  unfold octets width
  rw [hraw, List.take_append_drop]

/-! ## Looking for a header -/

/-- The octets `bs` begin with a match field of the header `h`, which is followed by `payload`, and
    `tail` comes after it. -/
structure Opens (h : OxmHeader) (payload tail bs : Octets) : Prop where
  octets_eq : bs = h.octets ++ (payload ++ tail)
  length_eq : h.payloadLength = payload.length

theorem Opens.length_le {h : OxmHeader} {payload tail bs : Octets}
    (ho : h.Opens payload tail bs) : width + h.payloadLength ≤ bs.length := by
  rw [ho.octets_eq, ho.length_eq, List.length_append, length_octets, List.length_append]
  omega

theorem run_ahead_read {h : OxmHeader} {pos : Nat} {rest : Octets} :
    (Decoder.ahead read).run ⟨pos, h.octets ++ rest⟩ = (.ok h, ⟨pos, h.octets ++ rest⟩) := by
  rw [Decoder.run_ahead, reads_read h rest pos]

theorem run_expect_of_short {c : Cursor} (h : c.rest.length < width) :
    expect.run c = (.error (.truncated .oxmField width c.rest.length), c) := by
  unfold expect
  rw [Decoder.run_bind_error (Decoder.run_need_of_lt h)]

/-- A header that is there is answered, unless what it announces reaches past the end. -/
theorem run_expect_octets {h : OxmHeader} {after : Octets} {c : Cursor}
    (hrest : c.rest = h.octets ++ after) :
    expect.run c =
      if c.rest.length < width + h.payloadLength then
        (.error (.truncated .oxmField (width + h.payloadLength) c.rest.length), c)
      else (.ok h, c) := by
  obtain ⟨pos, rest⟩ := c
  have hneed : width ≤ rest.length := by
    rw [show rest = _ from hrest, List.length_append, length_octets]
    exact Nat.le_add_right _ _
  have hread : (Decoder.ahead read).run ⟨pos, rest⟩ = (.ok h, ⟨pos, rest⟩) := by
    rw [show rest = _ from hrest]
    exact run_ahead_read
  unfold expect
  rw [Decoder.run_bind_ok (Decoder.run_need_of_le hneed), Decoder.run_bind_ok hread]
  by_cases hall : rest.length < width + h.payloadLength
  · rw [if_pos hall, Decoder.run_bind_error (Decoder.run_need_of_lt hall)]
  · rw [if_neg hall, Decoder.run_bind_ok (Decoder.run_need_of_le (Nat.le_of_not_lt hall))]
    rfl

theorem run_expect {h : OxmHeader} {payload tail : Octets} {c : Cursor}
    (ho : h.Opens payload tail c.rest) : expect.run c = (.ok h, c) := by
  rw [run_expect_octets ho.octets_eq, if_neg (Nat.not_lt.2 ho.length_le)]

/-- What looking for a match field comes to: there are too few octets for a header or for what it
    announces, or a match field is there. -/
theorem expect_cases (c : Cursor) :
    (∃ needed, c.rest.length < needed
      ∧ expect.run c = (.error (.truncated .oxmField needed c.rest.length), c))
    ∨ ∃ (h : OxmHeader) (payload tail : Octets), h.Opens payload tail c.rest
      ∧ expect.run c = (.ok h, c) := by
  by_cases hneed : width ≤ c.rest.length
  · obtain ⟨h, after, hrest⟩ := exists_octets c.rest hneed
    have hrun := run_expect_octets hrest
    by_cases hall : c.rest.length < width + h.payloadLength
    · rw [if_pos hall] at hrun
      exact .inl ⟨width + h.payloadLength, hall, hrun⟩
    · rw [if_neg hall] at hrun
      have hlength : c.rest.length = width + after.length := by
        rw [hrest, List.length_append, length_octets]
      refine .inr ⟨h, after.take h.payloadLength, after.drop h.payloadLength, ⟨?_, ?_⟩, hrun⟩
      · rw [List.take_append_drop]
        exact hrest
      · rw [List.length_take]
        omega
  · have hshort := Nat.lt_of_not_le hneed
    exact .inl ⟨width, hshort, run_expect_of_short hshort⟩

end OxmHeader

/-! ## The headers that kinds of fields write -/

namespace OxmKind

@[simp] theorem payloadLength_header (k : OxmKind) (hasMask : Bool) :
    (k.header hasMask).payloadLength = k.payloadLength hasMask := by
  cases hasMask <;> cases k <;> rfl

@[simp] theorem hasMask_header (k : OxmKind) (hasMask : Bool) :
    (k.header hasMask).hasMask = hasMask := by
  cases hasMask <;> cases k <;> rfl

@[simp] theorem oxmType_header (k : OxmKind) (hasMask : Bool) :
    (k.header hasMask).oxmType = k.oxmType := by
  cases hasMask <;> cases k <;> rfl

@[simp] theorem ofHeader?_header (k : OxmKind) (hasMask : Bool) :
    ofHeader? (k.header hasMask) = some k := by
  cases hasMask <;> cases k <;> rfl

theorem ofNumber?_of_oxmType (k : OxmKind) :
    ofNumber? (k.oxmType - OxmClass.basic.toNat * 128) = some k := by
  rw [oxmType, Nat.add_sub_cancel_left]
  exact k.ofNumber?_number

theorem number_of_ofNumber? {n : Nat} {k : OxmKind} (h : ofNumber? n = some k) : k.number = n := by
  obtain ⟨hn, rfl⟩ := List.getElem?_eq_some_iff.1 h
  have hall : ∀ i : Fin all.length, (all.get i).number = i := by decide
  exact hall ⟨n, hn⟩

/-- The kind that a header announces has the type of the header. -/
theorem oxmType_of_ofHeader? {h : OxmHeader} {k : OxmKind} (hk : ofHeader? h = some k) :
    h.oxmType = k.oxmType := by
  unfold ofHeader? at hk
  split at hk
  · rename_i hclass
    rw [oxmType, number_of_ofNumber? hk, ← hclass]
    simp only [OxmHeader.oxmType, OxmHeader.fieldClass, OxmHeader.number]
    omega
  · cases hk

/-- Kinds have different types. -/
theorem oxmType_injective {k l : OxmKind} (h : k.oxmType = l.oxmType) : k = l := by
  have hk := ofNumber?_of_oxmType k
  rw [h, ofNumber?_of_oxmType l] at hk
  exact (Option.some.inj hk).symm

end OxmKind

end OpenFlow
