import OpenFlow.Proofs.Oxm.Field
import OpenFlow.Proofs.Recoding.Recoded

set_option autoImplicit false

/-! # Match fields are written again as they were

A header is made of the type of the field, the mask bit and the length, and a decoder of fields
checks the length against the other two. So the header of a field that was read is the one that its
kind writes, and no octet of a field is left open (`Field.follows_decode`). -/

namespace OpenFlow

open Decoder Template

namespace OxmHeader

/-- A header is nothing but its parts. -/
theorem ext_parts {g h : OxmHeader} (htype : g.oxmType = h.oxmType) (hmask : g.hasMask = h.hasMask)
    (hlength : g.payloadLength = h.payloadLength) : g = h := by
  obtain ⟨g⟩ := g
  obtain ⟨h⟩ := h
  have hbit : g.toNat / 256 % 2 = 1 ↔ h.toNat / 256 % 2 = 1 := by
    simpa only [OxmHeader.hasMask, beq_iff_eq] using Bool.eq_iff_iff.1 hmask
  have htop : g.toNat / 512 = h.toNat / 512 := htype
  have hlow : g.toNat % 256 = h.toNat % 256 := hlength
  have hraw : g.toNat = h.toNat := by omega
  rw [UInt32.toNat_inj.1 hraw]

theorem eq_header {h : OxmHeader} {k : OxmKind} (htype : h.oxmType = k.oxmType)
    (hlength : h.payloadLength = k.payloadLength h.hasMask) : h = k.header h.hasMask := by
  refine ext_parts ?_ ?_ ?_
  · rw [OxmKind.oxmType_header, htype]
  · rw [OxmKind.hasMask_header]
  · rw [OxmKind.payloadLength_header, hlength]

theorem run_expect_ok {c c' : Cursor} {h : OxmHeader} (hrun : expect.run c = (.ok h, c')) :
    c' = c ∧ ∃ payload tail, h.Opens payload tail c.rest := by
  rcases expect_cases c with ⟨n, -, herror⟩ | ⟨g, payload, tail, ho, hok⟩
  · rw [herror] at hrun
    cases (Prod.mk.inj hrun).1
  · rw [hok] at hrun
    obtain ⟨hheader, rfl⟩ := Prod.mk.inj hrun
    obtain rfl := Except.ok.inj hheader
    exact ⟨rfl, payload, tail, ho⟩

end OxmHeader

theorem Value.run_read_ok {s : Shape} {c c' : Cursor} {v : Value s}
    (h : (Value.read s).run c = (.ok v, c')) : c.rest = v.octets ++ c'.rest := by
  obtain ⟨n, hn, rfl⟩ := run_bind_pure_iff.1 h
  obtain ⟨hrest, hlt⟩ := run_word_ok hn
  have hpow : Nat.pow 256 s.width = 2 ^ (8 * s.width) := (Nat.pow_mul 2 8 s.width).symm
  have hmod : n % 2 ^ (8 * s.width) = n := Nat.mod_eq_of_lt (hpow ▸ hlt)
  rw [Value.octets, BitVec.toNat_ofNat, hmod]
  exact hrest

namespace Field

/-- The value and the mask are the octets after the header. -/
theorem run_readPayload_ok {k : OxmKind} {hasMask : Bool} {c c' : Cursor} {f : Field}
    (hrun : (readPayload k hasMask).run c = (.ok f, c')) :
    f.kind = k ∧ f.hasMask = hasMask ∧ c.rest = f.value.octets ++ f.maskOctets ++ c'.rest := by
  obtain ⟨value, c₁, hvalue, hrest⟩ := exists_of_run_bind_ok hrun
  have hfirst := Value.run_read_ok hvalue
  cases hasMask with
  | false =>
    obtain ⟨hf, rfl⟩ := Prod.mk.inj hrest
    obtain rfl := Except.ok.inj hf
    refine ⟨rfl, rfl, ?_⟩
    rw [hfirst, maskOctets, List.append_nil]
  | true =>
    obtain ⟨mask, hmask, rfl⟩ := run_bind_pure_iff.1 hrest
    refine ⟨rfl, rfl, ?_⟩
    rw [hfirst, Value.run_read_ok hmask, List.append_assoc]
    rfl

/-- A field that is read is there with all its octets. -/
theorem octets_of_run_decodeAs {k : OxmKind} {c c' : Cursor} {f : Field}
    (hrun : (decodeAs k).run c = (.ok f, c')) : c.rest = f.octets ++ c'.rest := by
  have hexpect := hrun
  unfold decodeAs at hexpect
  obtain ⟨h, c₁, hexpect, -⟩ := exists_of_run_bind_ok hexpect
  obtain ⟨-, payload, tail, ho⟩ := OxmHeader.run_expect_ok hexpect
  rw [run_decodeAs k ho] at hrun
  by_cases htype : h.oxmType ≠ k.oxmType
  · rw [if_pos htype] at hrun
    cases (Prod.mk.inj hrun).1
  · rw [if_neg htype] at hrun
    by_cases hlength : h.payloadLength ≠ k.payloadLength h.hasMask
    · rw [if_pos hlength] at hrun
      cases (Prod.mk.inj hrun).1
    · rw [if_neg hlength] at hrun
      obtain ⟨rfl, hmask, hoctets⟩ := run_readPayload_ok hrun
      -- what was stepped over is the header, which is that of the field
      have hheader : f.header = h := by
        rw [header, hmask]
        exact (OxmHeader.eq_header (not_not.1 htype) (not_not.1 hlength)).symm
      have hrest : c.rest = h.octets ++ (c.advance OxmHeader.width).rest := by
        rw [Cursor.rest_advance, ho.octets_eq, List.drop_left' h.length_octets]
      rw [hrest, hoctets, octets_eq, hheader, List.append_assoc, List.append_assoc,
        List.append_assoc]

theorem octets_of_run_decode {c c' : Cursor} {f : Field} (hrun : decode.run c = (.ok f, c')) :
    c.rest = f.octets ++ c'.rest := by
  unfold decode at hrun
  obtain ⟨h, c₁, hexpect, hkind⟩ := exists_of_run_bind_ok hrun
  obtain ⟨rfl, payload, tail, ho⟩ := OxmHeader.run_expect_ok hexpect
  cases hk : OxmKind.ofHeader? h with
  | none =>
    rw [hk] at hkind
    obtain ⟨_, c₂, -, hfail⟩ := exists_of_run_bind_ok hkind
    cases (Prod.mk.inj hfail).1
  | some k =>
    rw [hk] at hkind
    exact octets_of_run_decodeAs hkind

theorem follows_decode : decode.Follows anywhere fun f t => t = exact f.octets := by
  refine (follows_of_reads (P := fun _ => True) ?_ fun f _ => f.reads_decode).weaken
    fun _ _ h => h.1
  intro c c' f hrun
  exact ⟨octets_of_run_decode hrun, trivial⟩

theorem follows (limits : Limits) :
    (Record.decode limits : Decoder Field).Follows anywhere (Drawn fun f => exact f.octets) := by
  refine follows_decode.weaken fun f t ht => ⟨ht, ?_⟩
  rw [fill_exact]
  exact Encoding.writes_ofOctets f.octets

theorem template_ne_nil (f : Field) : exact f.octets ≠ [] := fun h =>
  f.octets_ne_nil (List.map_eq_nil_iff.1 h)

theorem consumes (limits : Limits) : (Record.decode limits : Decoder Field).Consumes :=
  (follows limits).consumes fun f _ ht => ht.1 ▸ f.template_ne_nil

/-- Fields that are read one after the other are there with all their octets. -/
theorem octets_of_pass {limits : Limits} {fs : List Field} {c c' : Cursor}
    (h : Pass (Record.decode limits) c fs c') : c.rest = fs.flatMap Field.octets ++ c'.rest := by
  obtain ⟨bs, hfits, hrest, -⟩ := (follows limits).pass template_ne_nil h
  rw [← exact_flatMap, fits_exact_iff] at hfits
  rw [hrest, hfits]

/-- Everything in a list of fields counts. -/
theorem recodesExactly (limits : Limits) : RecodesExactly limits (List Field) := by
  refine recodesExactly_of_follows (fun fs => fs.flatMap Field.octets) ?_
  refine (Sequence.follows_decode (follows limits) template_ne_nil).weaken fun fs t ht => ?_
  rw [funext (exact_flatMap Field.octets)]
  exact ht

end Field

end OpenFlow
