import OpenFlow.Octets.Encoding

set_option autoImplicit false

/-! # What an encoding writes

`e.Writes bs` says that the encoding `e` came to its end, and that `bs` is what it wrote. Encodings
that come to their end can be appended, and a structure written part by part is the octets of its
parts in order. -/

namespace OpenFlow.Encoding

variable {α : Type}

/-- The encoding did not overflow, and `bs` is what it wrote. -/
def Writes (e : Encoding) (bs : Octets) : Prop := e = ofOctets bs

theorem writes_ofOctets (bs : Octets) : (ofOctets bs).Writes bs := rfl

theorem Writes.append {a b : Encoding} {as bs : Octets} (ha : a.Writes as) (hb : b.Writes bs) :
    (a ++ b).Writes (as ++ bs) := by
  unfold Writes at *
  rw [ha, hb, ofOctets_append]

theorem writes_header (element : Element) (code : Nat) {length : Nat} (h : length ≤ 0xffff) :
    (header element code length).Writes (bigEndian 2 code ++ bigEndian 2 length) := if_pos h

theorem writes_lengthField (element : Element) {length : Nat} (h : length ≤ 0xffff) :
    (lengthField element length).Writes (bigEndian 2 length) := if_pos h

theorem Writes.toExcept_eq {e : Encoding} {bs : Octets} (h : e.Writes bs) :
    e.toExcept = .ok bs := by
  rw [show e = ofOctets bs from h]
  rfl

theorem writes_concat {encode : α → Encoding} {octets : α → Octets} {xs : List α}
    (h : ∀ x ∈ xs, (encode x).Writes (octets x)) :
    (concat encode xs).Writes (xs.flatMap octets) := by
  induction xs with
  | nil => rfl
  | cons x xs ih =>
    have hx : (encode x).Writes (octets x) := h x List.mem_cons_self
    have hxs : (concat encode xs).Writes (xs.flatMap octets) :=
      ih fun y hy => h y (List.mem_cons_of_mem x hy)
    exact hx.append hxs

/-! ## What was written came to its end -/

theorem writes_of_toExcept {e : Encoding} {bs : Octets} (h : e.toExcept = .ok bs) :
    e.Writes bs := by
  obtain ⟨octets, _ | overflow⟩ := e
  · exact congrArg ofOctets (Except.ok.inj h)
  · cases h

/-- The parts of what came to its end did so. -/
theorem Writes.parts {a b : Encoding} {cs : Octets} (h : (a ++ b).Writes cs) :
    (∃ as, a.Writes as) ∧ ∃ bs, b.Writes bs := by
  obtain ⟨as, _ | overflow⟩ := a
  · obtain ⟨bs, overflow⟩ := b
    obtain rfl : overflow = none := congrArg Encoding.overflow h
    exact ⟨⟨as, rfl⟩, bs, rfl⟩
  · cases congrArg Encoding.overflow h

theorem Writes.length_le {element : Element} {code length : Nat} {bs : Octets}
    (h : (header element code length).Writes bs) : length ≤ 0xffff := by
  refine Decidable.byContradiction fun hlarge => ?_
  rw [Writes, header, if_neg hlarge] at h
  cases congrArg Encoding.overflow h

theorem Writes.of_mem_concat {encode : α → Encoding} {xs : List α} {bs : Octets}
    (h : (concat encode xs).Writes bs) {x : α} (hx : x ∈ xs) : ∃ cs, (encode x).Writes cs := by
  induction xs generalizing bs with
  | nil => cases hx
  | cons y ys ih =>
    have hsplit : (encode y ++ concat encode ys).Writes bs := h
    obtain ⟨hy, cs, hys⟩ := hsplit.parts
    rcases List.mem_cons.1 hx with rfl | hx
    · exact hy
    · exact ih hys hx

end OpenFlow.Encoding
