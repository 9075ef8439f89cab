import OpenFlow.Proofs.Octets.Parsing
import OpenFlow.Proofs.Recoding.Match
import OpenFlow.Proofs.RecordFormat

set_option autoImplicit false

/-! # What a scan accepts

A buffer of records is chunks in a row, each a header, the body that the header announces, and
padding that may be anything. A scan finds the records of such a buffer if it is not too large and
they are not too many, and refuses every other buffer; there is one way to take a buffer apart; and
stepping over records one after the other comes to the ends of the same chunks
(`scans_accept_their_grammar`). -/

namespace OpenFlow

open Decoder

/-! ## Chunks -/

/-- The chunk of a record: its header, its body, and as much padding as the record's stride asks
    for, whatever the padding holds. -/
structure RawRecord.Spans (framing : Framing) (r : RawRecord) (chunk : Octets) : Prop where
  size_eq : r.header.size = headerLength + r.body.length
  stride_eq : r.stride = framing.stride r.header.size
  length_eq : chunk.length = r.stride
  exists_padding : ∃ pad, chunk = r.header.octets ++ r.body ++ pad

/-- The chunk of a match field: its header and the payload that the header announces. -/
structure RawField.Spans (f : RawField) (chunk : Octets) : Prop where
  length_eq : f.header.payloadLength = f.payload.length
  octets_eq : chunk = f.octets

theorem Framing.stride_eq (framing : Framing) (length : Nat) :
    framing.stride length = length + framing.uncovered length := by
  cases framing <;> rfl

namespace RawRecord

variable {framing : Framing} {r : RawRecord} {chunk : Octets}

theorem Spans.exists_opens (h : r.Spans framing chunk) :
    ∃ pad, pad.length = framing.uncovered r.header.size
      ∧ chunk.length = r.header.size + pad.length
      ∧ ∀ tail, r.header.Opens r.body (pad ++ tail) (chunk ++ tail) := by
  obtain ⟨pad, hchunk⟩ := h.exists_padding
  have hsize := h.size_eq
  have hlength : chunk.length = headerLength + r.body.length + pad.length := by
    rw [hchunk, List.length_append, List.length_append, Header.length_octets]
  have hstride := h.length_eq
  rw [h.stride_eq, framing.stride_eq] at hstride
  refine ⟨pad, by omega, by omega, fun tail => ⟨?_, hsize⟩⟩
  rw [hchunk, List.append_assoc, List.append_assoc]

theorem Spans.reads (e : Element) (h : r.Spans framing chunk) :
    (decode e framing).Reads chunk r := by
  obtain ⟨pad, hpad, hlength, hopens⟩ := h.exists_opens
  obtain ⟨header, body, stride⟩ := r
  obtain rfl : stride = framing.stride header.size := h.stride_eq
  intro tail pos
  have hrun : (decode e framing).run ⟨pos, chunk ++ tail⟩ = _ := run_decode (hopens tail)
  rw [hrun, Header.close_padding hpad, hlength]

theorem Spans.ne_nil (h : r.Spans framing chunk) : chunk ≠ [] := by
  obtain ⟨pad, rfl⟩ := h.exists_padding
  apply List.length_pos_iff.1
  rw [List.length_append, List.length_append, Header.length_octets, headerLength]
  omega

theorem exists_spans_of_run {e : Element} {c c' : Cursor}
    (hrun : (decode e framing).run c = (.ok r, c')) :
    ∃ chunk, r.Spans framing chunk ∧ c.rest = chunk ++ c'.rest := by
  rcases Header.expect_cases e c with
    ⟨n, -, herror⟩ | ⟨h, rest, -, -, herror⟩ | ⟨h, body, tail, ho, -⟩
  · rw [decode, run_bind_error herror] at hrun
    cases (Prod.mk.inj hrun).1
  · rw [decode, run_bind_error herror] at hrun
    cases (Prod.mk.inj hrun).1
  · rw [run_decode ho] at hrun
    obtain ⟨rfl, pad, hpad, rfl⟩ := Header.exists_padding hrun
    obtain ⟨hrest, hsize⟩ := ho
    refine ⟨h.octets ++ body ++ pad, ⟨hsize, rfl, ?_, pad, rfl⟩, ?_⟩
    · rw [List.length_append, List.length_append, Header.length_octets, hpad, ← hsize,
        Framing.stride_eq]
    · rw [hrest]
      simp only [List.append_assoc]

/-- The stride of a record is how many octets fewer are to come once it was read. -/
theorem stride_eq_of_run {e : Element} {c c' : Cursor}
    (hrun : (decode e framing).run c = (.ok r, c')) : r.stride = c.remaining - c'.remaining := by
  obtain ⟨chunk, hspans, hrest⟩ := exists_spans_of_run hrun
  have hremaining : c.remaining = chunk.length + c'.remaining := by
    rw [Cursor.remaining, hrest, List.length_append]
    rfl
  rw [hremaining, hspans.length_eq, Nat.add_sub_cancel]

/-- A record is read from its chunk, and from no other octets. -/
theorem parses (e : Element) (framing : Framing) :
    (decode e framing).Parses (Spans framing) :=
  ⟨fun h => h.reads e, Spans.ne_nil, exists_spans_of_run⟩

end RawRecord

namespace RawField

variable {f : RawField} {chunk : Octets}

theorem Spans.reads (h : f.Spans chunk) : decode.Reads chunk f := by
  obtain rfl := h.octets_eq
  exact reads_decode h.length_eq

theorem Spans.ne_nil (h : f.Spans chunk) : chunk ≠ [] := by
  apply List.length_pos_iff.1
  rw [h.octets_eq, octets, List.length_append, OxmHeader.length_octets, OxmHeader.width]
  omega

theorem exists_spans_of_run {c c' : Cursor} (hrun : decode.run c = (.ok f, c')) :
    ∃ chunk, f.Spans chunk ∧ c.rest = chunk ++ c'.rest := by
  rcases OxmHeader.expect_cases c with ⟨n, -, herror⟩ | ⟨h, payload, tail, ho, -⟩
  · rw [decode, run_bind_error herror] at hrun
    cases (Prod.mk.inj hrun).1
  · obtain ⟨hrest, hlength⟩ := ho
    have hspans : (⟨h, payload⟩ : RawField).Spans (h.octets ++ payload) := ⟨hlength, rfl⟩
    obtain ⟨pos, rest⟩ := c
    obtain rfl : rest = h.octets ++ payload ++ tail := hrest.trans (List.append_assoc _ _ _).symm
    rw [hspans.reads tail pos] at hrun
    obtain ⟨hvalue, rfl⟩ := Prod.mk.inj hrun
    obtain rfl := Except.ok.inj hvalue
    exact ⟨_, hspans, rfl⟩

/-- A match field is read from its chunk, and from no other octets. -/
theorem parses : decode.Parses Spans := ⟨Spans.reads, Spans.ne_nil, exists_spans_of_run⟩

end RawField

/-! ## Stepping over records -/

/-- Stepping over a record is reading it and keeping its header: whether it succeeds or fails, and
    wherever it ends. -/
theorem Header.skipElement_eq (e : Element) (framing : Framing) :
    skipElement e framing = RawRecord.decode e framing >>= fun r => pure r.header := by
  funext c
  show (skipElement e framing).run c
    = (RawRecord.decode e framing >>= fun r => pure r.header).run c
  have hshort {error : DecodeError} (herror : (expect e).run c = (.error error, c)) :
      (skipElement e framing).run c
        = (RawRecord.decode e framing >>= fun r => pure r.header).run c := by
    have hskip : (skipElement e framing).run c = (.error error, c) := run_bind_error herror
    have hread : (RawRecord.decode e framing).run c = (.error error, c) := run_bind_error herror
    rw [hskip, run_bind_error hread]
  rcases expect_cases e c with
    ⟨n, -, herror⟩ | ⟨h, rest, -, -, herror⟩ | ⟨h, body, tail, ho, -⟩
  · exact hshort herror
  · exact hshort herror
  · rw [run_skipElement ho]
    exact (run_bind_close (RawRecord.run_decode ho) fun _ => rfl).symm

/-! ## Scans -/

/-- A scan finds what stands for chunks in a row, within its limits, and refuses all else; there is
    one way to take a buffer apart into chunks. -/
structure AcceptsChunks {ρ : Type} (scan : Limits → Octets → Except DecodeError (List ρ))
    (spans : ρ → Octets → Prop) : Prop where
  ok_iff : ∀ (limits : Limits) (bs : Octets) (rs : List ρ), scan limits bs = .ok rs ↔
    bs.length ≤ limits.of .bufferOctets ∧ rs.length ≤ limits.of .records
      ∧ ∃ chunks, bs = chunks.flatten ∧ List.Forall₂ spans rs chunks
  unique : ∀ (rs rs' : List ρ) (chunks chunks' : List Octets), List.Forall₂ spans rs chunks →
    List.Forall₂ spans rs' chunks' → chunks.flatten = chunks'.flatten → rs = rs' ∧ chunks = chunks'

theorem Decoder.Parses.acceptsChunks {ρ : Type} {d : Decoder ρ} {spans : ρ → Octets → Prop}
    (hd : d.Parses spans) : AcceptsChunks (Scan.buffer · d) spans where
  ok_iff limits bs rs := by
    unfold Scan.buffer
    by_cases hlarge : limits.of .bufferOctets < bs.length
    · rw [if_pos hlarge]
      constructor
      · intro h
        cases h
      · rintro ⟨hsize, -⟩
        exact absurd hsize (Nat.not_le_of_lt hlarge)
    · rw [if_neg hlarge]
      exact hd.run_many_iff.trans (iff_and_self.2 fun _ => Nat.le_of_not_lt hlarge)
  unique _ _ _ _ h h' heq := hd.eq_of_flatten_eq h h' heq

/-- Stepping over records, again and again from the start of a buffer, comes to the ends of the
    chunks of records and to no other places, and answers the headers of these records. It gets to
    the end of a buffer that the limits admit just if a scan succeeds. Where no record can be read
    it fails for the same reason. -/
structure SkipsChunks (e : Element) (framing : Framing) : Prop where
  pass_iff : ∀ (bs : Octets) (hs : List Header) (c : Cursor),
    Pass (Header.skipElement e framing) (.start bs) hs c ↔
      ∃ (rs : List RawRecord) (chunks : List Octets), rs.map RawRecord.header = hs
        ∧ List.Forall₂ (RawRecord.Spans framing) rs chunks
        ∧ bs = chunks.flatten ++ c.rest ∧ c.pos = chunks.flatten.length
  pass_end_iff : ∀ (limits : Limits) (bs : Octets) (hs : List Header),
    bs.length ≤ limits.of .bufferOctets → hs.length ≤ limits.of .records →
      (Pass (Header.skipElement e framing) (.start bs) hs ⟨bs.length, []⟩ ↔
        ∃ rs, Scan.records e framing limits bs = .ok rs ∧ rs.map RawRecord.header = hs)
  error_iff : ∀ (c c' : Cursor) (error : DecodeError),
    (Header.skipElement e framing).run c = (.error error, c') ↔
      (RawRecord.decode e framing).run c = (.error error, c')

theorem skipsChunks (e : Element) (framing : Framing) : SkipsChunks e framing where
  pass_iff bs hs c := by
    rw [Header.skipElement_eq, pass_bind_pure_iff]
    constructor
    · rintro ⟨rs, hheaders, hpass⟩
      obtain ⟨chunks, hchunks⟩ := (RawRecord.parses e framing).pass_start_iff.1 hpass
      exact ⟨rs, chunks, hheaders, hchunks⟩
    · rintro ⟨rs, chunks, hheaders, hchunks⟩
      exact ⟨rs, hheaders, (RawRecord.parses e framing).pass_start_iff.2 ⟨chunks, hchunks⟩⟩
  pass_end_iff limits bs hs hsize hcount := by
    have hscan := (RawRecord.parses e framing).acceptsChunks.ok_iff limits bs
    rw [Header.skipElement_eq, pass_bind_pure_iff]
    constructor
    · rintro ⟨rs, rfl, hpass⟩
      obtain ⟨chunks, hchunks, hbs, -⟩ := (RawRecord.parses e framing).pass_start_iff.1 hpass
      rw [List.length_map] at hcount
      exact ⟨rs, (hscan rs).2 ⟨hsize, hcount, chunks, hbs.trans (List.append_nil _), hchunks⟩, rfl⟩
    · rintro ⟨rs, hok, rfl⟩
      obtain ⟨-, -, chunks, rfl, hchunks⟩ := (hscan rs).1 hok
      exact ⟨rs, rfl, (RawRecord.parses e framing).pass_start_iff.2
        ⟨chunks, hchunks, (List.append_nil _).symm, rfl⟩⟩
  error_iff c c' error := by
    rw [Header.skipElement_eq, run_bind_pure_error_iff]

/-- Scans accept what stands for chunks in a row, and stepping over records comes to the ends of
    the same chunks. -/
theorem scans_accept_their_grammar :
    (∀ (e : Element) (framing : Framing),
      AcceptsChunks (Scan.records e framing) (RawRecord.Spans framing) ∧ SkipsChunks e framing)
    ∧ AcceptsChunks Scan.oxmFields RawField.Spans :=
  ⟨fun e framing => ⟨(RawRecord.parses e framing).acceptsChunks, skipsChunks e framing⟩,
    RawField.parses.acceptsChunks⟩

/-- Padding may hold anything, but has to be there after the last record too. -/
example :
    let scan := Scan.records .tableProperty .paddingExcluded .unlimited
    scan [0, 1, 0, 5, 9, 0xff, 0xff, 0xff, 0, 2, 0, 4, 0xff, 0, 0, 0]
        = .ok [⟨⟨1, 5⟩, [9], 8⟩, ⟨⟨2, 4⟩, [], 8⟩]
      ∧ scan [0, 1, 0, 5, 9, 0xff] = .error (.truncated .tableProperty 3 1) := by
  decide +kernel

end OpenFlow
