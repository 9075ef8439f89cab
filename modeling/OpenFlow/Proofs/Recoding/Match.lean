import OpenFlow.Proofs.KeyedSet.Reading
import OpenFlow.Proofs.Recoding.Field
import OpenFlow.Proofs.Recoding.Format
import OpenFlow.Proofs.RoundTrip.Match

set_option autoImplicit false

/-! # The canonical form of a match

A match keeps its fields in the order of their types, whatever order they were read in, and does
not keep its padding. Writing it again therefore sorts the fields and clears the padding, and does
nothing else (`Match.canonical_form`). The fields are told apart by a scan of the octets, which
interprets nothing: `Match.frame` is made of what such a scan finds. -/

namespace OpenFlow

open Decoder Template

/-! ## Fields as a scan finds them -/

/-- The octets of a match field in a buffer. -/
def RawField.octets (r : RawField) : Octets := r.header.octets ++ r.payload

/-- The field as a scan finds it. -/
def Field.raw (f : Field) : RawField := ⟨f.header, f.value.octets ++ f.maskOctets⟩

namespace Field

theorem octets_raw (f : Field) : f.raw.octets = f.octets := f.octets_eq.symm

theorem oxmType_raw (f : Field) : f.raw.header.oxmType = Keyed.key f :=
  f.kind.oxmType_header f.hasMask

theorem reads_raw (f : Field) : RawField.decode.Reads f.raw.octets f.raw :=
  RawField.reads_decode f.payloadLength_header

theorem flatMap_raw (fs : List Field) :
    (fs.map raw).flatMap RawField.octets = fs.flatMap Field.octets := by
  rw [List.flatMap_map]
  exact congrArg (List.flatMap · fs) (funext octets_raw)

end Field

/-- A scan finds the fields that stand back to back. -/
theorem Scan.oxmFields_raw {fs : List Field}
    (h : ((fs.map Field.raw).flatMap RawField.octets).length ≤ Limits.unbounded) :
    Scan.oxmFields .unlimited ((fs.map Field.raw).flatMap RawField.octets)
      = .ok (fs.map Field.raw) := by
  have hreads : ∀ r ∈ fs.map Field.raw, RawField.decode.Reads r.octets r := by
    intro r hr
    obtain ⟨f, -, rfl⟩ := List.mem_map.1 hr
    exact f.reads_raw
  have hpos : ∀ r ∈ fs.map Field.raw, r.octets ≠ [] := by
    intro r hr
    obtain ⟨f, -, rfl⟩ := List.mem_map.1 hr
    rw [f.octets_raw]
    exact f.octets_ne_nil
  have hpass := Pass.of_reads hreads hpos 0 []
  rw [List.append_nil] at hpass
  have hcount : (fs.map Field.raw).length ≤ Limits.unbounded := Nat.le_trans hpass.length_le h
  unfold oxmFields Scan.buffer
  refine (if_neg (Nat.not_lt.2 h)).trans ?_
  exact congrArg Prod.fst (hpass.run_many rfl hcount)

/-! ## Cutting a padded element out -/

/-- What a padded element that is read consists of. -/
theorem Decoder.run_elementPadded_ok {α : Type} {e : Element} {code : Nat} {layout : Layout α}
    {c c' : Cursor} {a : α} (hrun : (elementPadded e code layout).run c = (.ok a, c')) :
    ∃ (h : Header) (body pad : Octets), h.code = code ∧ h.size = headerLength + body.length
      ∧ c.rest = h.octets ++ (body ++ (pad ++ c'.rest)) ∧ pad.length = gap h.size
      ∧ ((layout.body h).run ⟨headerLength, body⟩).1 = .ok a := by
  rcases elementPadded_cases e code layout c with
    ⟨needed, -, hcase⟩ | ⟨h, hcase⟩ | ⟨h, body, tail, ho, ⟨-, hcase⟩ | ⟨hcode, hcase⟩⟩
  · cases hcase.symm.trans hrun
  · cases hcase.symm.trans hrun
  · cases hcase.symm.trans hrun
  · obtain ⟨l, hlayout, -, hbody, pad, hpad, rfl⟩ :=
      RecordFormat.exists_layout (hcase.symm.trans hrun)
    obtain rfl : layout = l := Option.some.inj hlayout
    exact ⟨h, body, pad, hcode, ho.size_eq, ho.octets_eq, hpad, hbody⟩

/-! ## Matches -/

namespace Match

/-- The octets of a match: the fields that a scan finds, behind a header that tells their length,
    and padding. -/
def frame (rs : List RawField) (pad : Octets) : Octets :=
  bigEndian 2 MatchType.oxm.toNat
    ++ bigEndian 2 (headerLength + (rs.flatMap RawField.octets).length)
    ++ rs.flatMap RawField.octets ++ pad

/-- The octets of a match that is read. -/
theorem run_decode_ok {limits : Limits} {m : Match} {c c' : Cursor}
    (hrun : (decode limits).run c = (.ok m, c')) :
    ∃ (fs : List Field) (pad : Octets), c.rest = frame (fs.map Field.raw) pad ++ c'.rest
      ∧ pad.length = gap (headerLength + ((fs.map Field.raw).flatMap RawField.octets).length)
      ∧ headerLength + ((fs.map Field.raw).flatMap RawField.octets).length ≤ 0xffff
      ∧ fs.length ≤ limits.of .oxmFields ∧ (fs.map fun f => Keyed.key f).Nodup
      ∧ m.fields = KeyedSet.ofList fs := by
  obtain ⟨fields, hpadded, rfl⟩ := run_bind_pure_iff.1 hrun
  obtain ⟨h, body, pad, hcode, hsize, hrest, hpad, hbody⟩ := run_elementPadded_ok hpadded
  rcases hset : (KeyedSet.decode limits : Decoder (KeyedSet Field)).run ⟨headerLength, body⟩ with
    ⟨result, c₁⟩
  obtain rfl : result = .ok fields := (congrArg Prod.fst hset).symm.trans hbody
  obtain ⟨fs, ⟨hpass, hcount, hnodup⟩, hend, rfl⟩ :=
    (KeyedSet.run_decode_ok_iff (Field.consumes limits)).1 hset
  -- the fields take up the whole body
  have hfields : body = (fs.map Field.raw).flatMap RawField.octets := by
    have hoctets := Field.octets_of_pass hpass
    rw [hend, List.append_nil] at hoctets
    rw [Field.flatMap_raw]
    exact hoctets
  refine ⟨fs, pad, ?_, ?_, ?_, hcount, hnodup, rfl⟩
  · rw [hrest, frame, ← hfields, ← hsize, ← hcode, Header.octets]
    simp only [List.append_assoc]
  · rw [← hfields, ← hsize]
    exact hpad
  · rw [← hfields, ← hsize]
    exact Nat.le_of_lt_succ h.length.toNat_lt

theorem length_frame (rs : List RawField) (pad : Octets) :
    (frame rs pad).length = headerLength + (rs.flatMap RawField.octets).length + pad.length := by
  rw [frame, List.length_append, List.length_append, List.length_append, length_bigEndian,
    length_bigEndian]
  rfl

theorem take_frame (rs : List RawField) (pad : Octets) :
    (frame rs pad).take headerLength = bigEndian 2 MatchType.oxm.toNat
      ++ bigEndian 2 (headerLength + (rs.flatMap RawField.octets).length) := by
  rw [frame, List.append_assoc]
  exact List.take_left' rfl

/-- The octets of a match are those of its fields, in order. -/
theorem octets_eq_frame (m : Match) :
    m.octets = frame (m.fields.toList.map Field.raw) (padding m.declaredLength) := by
  rw [frame, Field.flatMap_raw, fieldOctets_length]
  rfl

/-- Frames with as many octets of fields are equal if their fields and their padding are. -/
theorem frame_inj {rs qs : List RawField} {pad pad' : Octets}
    (hlength : (rs.flatMap RawField.octets).length = (qs.flatMap RawField.octets).length)
    (h : frame rs pad = frame qs pad') :
    rs.flatMap RawField.octets = qs.flatMap RawField.octets ∧ pad = pad' := by
  unfold frame at h
  rw [hlength] at h
  simp only [List.append_assoc, List.append_cancel_left_eq] at h
  exact List.append_inj h hlength

/-- Fields whose types ascend strictly. -/
def Ascending (rs : List RawField) : Prop :=
  rs.Pairwise fun r q => r.header.oxmType < q.header.oxmType

theorem eq_of_ascending_perm {rs qs : List RawField} (hrs : Ascending rs) (hqs : Ascending qs)
    (h : rs.Perm qs) : rs = qs :=
  List.Perm.eq_of_pairwise (fun _ _ _ _ hlt hgt => absurd hlt (Nat.lt_asymm hgt)) hrs hqs h

theorem ascending_toList {fields : KeyedSet Field} (h : fields.WellKeyed) :
    Ascending (fields.toList.map Field.raw) := by
  refine List.pairwise_map.2 (h.pairwise_toList.imp ?_)
  intro f g hlt
  rw [f.oxmType_raw, g.oxmType_raw]
  exact hlt

/-- Fields that ascend stand in a frame as others of the same types and octets do exactly if those
    ascend too. -/
theorem frame_eq_iff {fs gs : List Field} (hperm : fs.Perm gs)
    (hsmall : ((gs.map Field.raw).flatMap RawField.octets).length ≤ Limits.unbounded)
    (hfs : Ascending (fs.map Field.raw)) (pad pad' : Octets) :
    frame (fs.map Field.raw) pad = frame (gs.map Field.raw) pad' ↔
      Ascending (gs.map Field.raw) ∧ pad = pad' := by
  have hraw : (fs.map Field.raw).Perm (gs.map Field.raw) := hperm.map Field.raw
  have hlength := (hraw.flatMap_right RawField.octets).length_eq
  constructor
  · intro heq
    obtain ⟨hfields, hpad⟩ := frame_inj hlength heq
    -- fields with the same octets are found as the same fields
    have hscan := Scan.oxmFields_raw (hlength ▸ hsmall)
    rw [hfields, Scan.oxmFields_raw hsmall] at hscan
    rw [Except.ok.inj hscan]
    exact ⟨hfs, hpad⟩
  · rintro ⟨hgs, rfl⟩
    rw [eq_of_ascending_perm hfs hgs hraw]

/-- The fields of a match that is read are those that were read, so it declares their length. -/
theorem declaredLength_of_perm {m : Match} {fs : List Field} (h : m.fields.toList.Perm fs) :
    m.declaredLength = headerLength + ((fs.map Field.raw).flatMap RawField.octets).length := by
  have hlength := ((h.map Field.raw).flatMap_right RawField.octets).length_eq
  rw [← hlength, Field.flatMap_raw, fieldOctets_length]
  rfl

/-- What is written again of octets that are accepted as a match: behind the same header the same
    fields in ascending order of their types, and as much padding, all zeros. These are the octets
    themselves exactly if the fields ascend already and the padding is zeros, and they are accepted
    as the same match. -/
theorem canonical_form {limits : Limits} {bs : Octets} {m : Match}
    (h : Record.ofOctetsWithin limits bs = .ok m) :
    ∃ (rs sorted : List RawField) (pad bs' : Octets),
      bs = frame rs pad ∧ Scan.oxmFields .unlimited (rs.flatMap RawField.octets) = .ok rs
      ∧ Record.octets m = .ok bs' ∧ bs' = frame sorted (zeros pad.length)
      ∧ sorted.Perm rs ∧ Ascending sorted
      ∧ bs'.length = bs.length ∧ bs'.take headerLength = bs.take headerLength
      ∧ (bs' = bs ↔ Ascending rs ∧ pad = zeros pad.length)
      ∧ Record.ofOctetsWithin limits bs' = .ok m := by
  obtain ⟨c, hrun, hend⟩ := Record.ofOctetsWithin_eq_ok_iff.1 h
  obtain ⟨fs, pad, hbs, hpad, hlength, hcount, hnodup, hfields⟩ := run_decode_ok hrun
  rw [hend, List.append_nil] at hbs
  obtain rfl : bs = _ := hbs
  have hkeyed : m.fields.WellKeyed := hfields ▸ KeyedSet.wellKeyed_ofList fs
  have hperm : m.fields.toList.Perm fs := hfields ▸ KeyedSet.toList_ofList_perm hnodup
  have hraw : (m.fields.toList.map Field.raw).Perm (fs.map Field.raw) := hperm.map Field.raw
  have hsame := (hraw.flatMap_right RawField.octets).length_eq
  have hascending : Ascending (m.fields.toList.map Field.raw) := ascending_toList hkeyed
  have hoctets : m.octets = frame (m.fields.toList.map Field.raw) (zeros pad.length) := by
    rw [octets_eq_frame, padding, declaredLength_of_perm hperm, hpad]
  have hsize : m.fields.size ≤ limits.of .oxmFields := by
    have hlist : m.fields.toList.length = m.fields.size := List.length_map _
    rw [← hlist, hperm.length_eq]
    exact hcount
  have hcarries : Carries limits m.octets m := carries_of_size_le hkeyed hsize
  have hsmall : ((fs.map Field.raw).flatMap RawField.octets).length ≤ Limits.unbounded :=
    Nat.le_trans (Nat.le_trans (Nat.le_add_left _ _) hlength) (by decide)
  refine ⟨fs.map Field.raw, m.fields.toList.map Field.raw, pad, m.octets, rfl,
    Scan.oxmFields_raw hsmall, hcarries.writes.toExcept_eq, hoctets, hraw, hascending, ?_, ?_, ?_,
    hcarries.alone.ofOctetsWithin_eq⟩
  · rw [hoctets, length_frame, length_frame, hsame, length_zeros]
  · rw [hoctets, take_frame, take_frame, hsame]
  · rw [hoctets, frame_eq_iff hperm hsmall hascending, eq_comm (a := pad)]

/-- Two fields that do not ascend, before padding other than zeros. -/
theorem canonical_form_descending :
    let bs : Octets := [0, 1, 0, 18, 0x80, 0, 10, 2, 8, 0, 0x80, 0, 0, 4, 0, 0, 0, 7,
      1, 2, 3, 4, 5, 6]
    let bs' : Octets := [0, 1, 0, 18, 0x80, 0, 0, 4, 0, 0, 0, 7, 0x80, 0, 10, 2, 8, 0,
      0, 0, 0, 0, 0, 0]
    let m : Match := ⟨.ofList [⟨.ethType, 0x0800#16, none⟩, ⟨.inPort, 7#32, none⟩]⟩
    Record.ofOctetsWithin .small bs = .ok m ∧ Record.octets m = .ok bs'
      ∧ bs'.length = bs.length ∧ Record.ofOctetsWithin .small bs' = .ok m := by
  intro bs bs' m
  have hread : Record.ofOctetsWithin .small bs = .ok m := by decide
  have hoctets : Record.octets m = .ok bs' := by decide
  obtain ⟨rs, sorted, pad, written, -, -, hwritten, -, -, -, hlength, -, -, hagain⟩ :=
    canonical_form hread
  obtain rfl : bs' = written := Except.ok.inj (hoctets.symm.trans hwritten)
  exact ⟨hread, hoctets, hlength, hagain⟩

end Match

end OpenFlow
