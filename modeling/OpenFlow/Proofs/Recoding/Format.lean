import OpenFlow.Proofs.Octets.Following
import OpenFlow.Proofs.RecordFormat

set_option autoImplicit false

/-! # Templates of records

The header of a record counts, and so does what the decoder of its body reads; the octets that this
decoder leaves, and those of the padding after the record, are open. So a format follows templates
if each of its layouts does (`RecordFormat.follows`). A structure that declares its own length is
like a record without a kind (`Decoder.follows_measured`). -/

namespace OpenFlow

open Decoder Template

variable {α : Type}

/-! ## Layouts -/

namespace Layout

/-- What is read of a body is read from octets that fit a template, and the same is read from all
    that fit. -/
def Follows (layout : Layout α) (S : α → Template → Prop) : Prop :=
  ∀ (h : Header) (body : Octets) (a : α), layout.fits h.size = true →
    h.size = headerLength + body.length →
    ((layout.body h).run ⟨headerLength, body⟩).1 = .ok a →
    ∃ t : Template, S a t ∧ t.Fits body
      ∧ ∀ bs : Octets, t.Fits bs → ((layout.body h).run ⟨headerLength, bs⟩).1 = .ok a

/-- Octets that the decoder of the body leaves are open. -/
theorem follows_of_body {layout : Layout α} (room : Nat → Prop) {S : α → Template → Prop}
    (hbody : ∀ h, layout.fits h.size = true → (layout.body h).Follows room fun a t =>
      ∀ n, room n → h.size = headerLength + t.length + n → S a (t ++ blanks n)) :
    layout.Follows S := by
  intro h body a hfits hsize hresult
  rcases hrun : (layout.body h).run ⟨headerLength, body⟩ with ⟨result, c⟩
  obtain rfl : result = .ok a := by rw [← hresult, hrun]
  obtain ⟨t, bs, hS, hbs, hrest, hroom, hreads⟩ := hbody h hfits _ _ _ hrun
  obtain rfl : body = bs ++ c.rest := hrest
  refine ⟨t ++ blanks c.remaining, hS _ hroom ?_, hbs.append (fits_blanks_iff.2 rfl), ?_⟩
  · rw [hsize, List.length_append, hbs.length_eq, Nat.add_assoc]
    rfl
  · intro bs' hfits'
    obtain ⟨cs, ds, rfl, hcs, hds⟩ := fits_append_iff.1 hfits'
    -- as many octets are left as before, so there is room for them
    have hleft : ds.length = c.remaining := fits_blanks_iff.1 hds
    rw [hreads cs ds hcs (hleft ▸ hroom) headerLength]

/-- A layout of one length leaves what comes after the parameters. -/
theorem follows_fixed {length : Nat} {d : Decoder α} {S : α → Template → Prop}
    (hd : d.Follows anywhere fun a t =>
      ∀ n, length = headerLength + t.length + n → S a (t ++ blanks n)) :
    (fixed length d).Follows S := by
  refine follows_of_body anywhere fun h hfits => hd.weaken fun a t hS n _ hn => ?_
  have hlength : h.size = length := eq_of_beq hfits
  exact hS n (hlength ▸ hn)

/-- One number, and what fills up the record. -/
theorem follows_number {ν : Type} {length width : Nat} (filler : Nat) {d : Decoder ν} {toNat : ν → Nat}
    {make : ν → α} {S : α → Template → Prop} (hlength : length = headerLength + width + filler)
    (hd : d.Follows anywhere fun v t => t = exact (bigEndian width (toNat v)))
    (hS : ∀ v, S (make v) (exact (bigEndian width (toNat v)) ++ blanks filler)) :
    (fixed length (d >>= fun v => pure (make v))).Follows S := by
  refine follows_fixed (hd.map ?_)
  rintro v _ rfl n hn
  rw [length_exact, length_bigEndian] at hn
  obtain rfl : n = filler := by omega
  exact hS v

/-- Nothing but what fills up the record. -/
theorem follows_bare {length : Nat} (filler : Nat) {a : α} {S : α → Template → Prop}
    (hlength : length = headerLength + filler) (hS : S a (blanks filler)) :
    (fixed length (pure a)).Follows S := by
  refine follows_fixed ((follows_pure a).weaken ?_)
  rintro _ _ ⟨rfl, rfl⟩ n hn
  rw [List.length_nil] at hn
  obtain rfl : n = filler := by omega
  exact hS

/-- A layout whose decoder reads up to the end leaves nothing. -/
theorem follows_atLeast {least : Nat} {f : Header → Decoder α} {S : α → Template → Prop}
    (hf : ∀ h, (f h).Follows atEnd S) : (atLeast least f).Follows S := by
  refine follows_of_body atEnd fun h _ => (hf h).weaken fun a t hS n hn _ => ?_
  obtain rfl : n = 0 := hn
  exact (List.append_nil t).symm ▸ hS

end Layout

/-! ## Where a record ends -/

/-- How many octets of padding follow a record that its length does not cover. -/
def Framing.uncovered : Framing → Nat → Nat
  | .paddingIncluded, _ => 0
  | .paddingExcluded, length => gap length

/-- The template of a record: its header, its body, and the padding that its length does not
    cover. -/
def Framing.template (framing : Framing) (code length : Nat) (body : Template) : Template :=
  exact (bigEndian 2 code ++ bigEndian 2 length) ++ (body ++ blanks (framing.uncovered length))

theorem Framing.template_included (code length : Nat) (body : Template) :
    paddingIncluded.template code length body
      = exact (bigEndian 2 code ++ bigEndian 2 length) ++ body :=
  congrArg (_ ++ ·) (List.append_nil body)

theorem Framing.template_ne_nil (framing : Framing) (code length : Nat) (body : Template) :
    framing.template code length body ≠ [] := by
  apply List.length_pos_iff.1
  rw [template, List.length_append, length_exact, List.length_append, length_bigEndian]
  omega

namespace Header

variable {h : Header} {e : Element} {framing : Framing} {tail : Octets} {c c' : Cursor}

/-- A record that is read comes with the padding that its length does not cover. -/
theorem exists_padding {a b : α} (hclose : h.close e framing tail c (.ok a) = (.ok b, c')) :
    a = b ∧ ∃ pad, pad.length = framing.uncovered h.size ∧ tail = pad ++ c'.rest := by
  cases framing with
  | paddingIncluded =>
    obtain ⟨hresult, rfl⟩ := Prod.mk.inj hclose
    exact ⟨Except.ok.inj hresult, [], rfl, rfl⟩
  | paddingExcluded =>
    by_cases hgap : gap h.size ≤ tail.length
    · rw [close, if_pos hgap] at hclose
      obtain ⟨hresult, rfl⟩ := Prod.mk.inj hclose
      refine ⟨Except.ok.inj hresult, tail.take (gap h.size), ?_, ?_⟩
      · rw [List.length_take, Nat.min_eq_left hgap]
        rfl
      · exact (List.take_append_drop _ tail).symm
    · rw [close, if_neg hgap] at hclose
      cases (Prod.mk.inj hclose).1

/-- Padding that is there is stepped over. -/
theorem close_padding {pad : Octets} (hpad : pad.length = framing.uncovered h.size)
    (result : Except DecodeError α) :
    h.close e framing (pad ++ tail) c result = (result, ⟨c.pos + (h.size + pad.length), tail⟩) := by
  cases framing with
  | paddingIncluded =>
    obtain rfl : pad = [] := List.length_eq_zero_iff.1 hpad
    rfl
  | paddingExcluded =>
    have hgap : pad.length = gap h.size := hpad
    have hle : gap h.size ≤ (pad ++ tail).length := by
      rw [List.length_append, hgap]
      exact Nat.le_add_right _ _
    rw [close, if_pos hle, ← hgap, List.drop_left, padded, hgap]

end Header

/-! ## Formats -/

namespace RecordFormat

variable {F : RecordFormat α} {h : Header} {body tail : Octets} {c c' : Cursor} {a : α}

/-- A record that is read has a layout, and a length and a body that go with it. -/
theorem exists_layout (hrun : F.outcome h body tail c = (.ok a, c')) :
    ∃ layout, F.layout? h.code = some layout ∧ layout.fits h.size = true
      ∧ ((layout.body h).run ⟨headerLength, body⟩).1 = .ok a
      ∧ ∃ pad, pad.length = F.framing.uncovered h.size ∧ tail = pad ++ c'.rest := by
  cases hlayout : F.layout? h.code with
  | none =>
    -- a record of an unknown kind fails, with its padding there or not
    rw [outcome_of_unknown hlayout] at hrun
    cases hframing : F.framing with
    | paddingIncluded =>
      rw [hframing] at hrun
      cases (Prod.mk.inj hrun).1
    | paddingExcluded =>
      rw [hframing, Header.close] at hrun
      split at hrun
      · cases (Prod.mk.inj hrun).1
      · cases (Prod.mk.inj hrun).1
  | some layout =>
    by_cases hfits : layout.fits h.size = false
    · rw [outcome_of_unfit hlayout hfits] at hrun
      cases (Prod.mk.inj hrun).1
    · rw [outcome_of_fits hlayout hfits] at hrun
      rcases hbody : ((layout.body h).run ⟨headerLength, body⟩).1 with e | b
      · rw [hbody] at hrun
        cases (Prod.mk.inj hrun).1
      · rw [hbody] at hrun
        obtain ⟨rfl, hpad⟩ := Header.exists_padding hrun
        exact ⟨layout, rfl, eq_true_of_ne_false hfits, hbody, hpad⟩

/-- A record of a format whose layouts follow templates: the value tells the kind and the
    length. -/
theorem follows {S : Nat → α → Template → Prop} {code length : α → Nat}
    (hlayouts : ∀ (h : Header) layout, F.layout? h.code = some layout → layout.Follows (S h.code))
    (hS : ∀ n a t, S n a t → code a = n ∧ length a = headerLength + t.length) :
    F.decode.Follows anywhere fun a t => ∃ u, S (code a) a u
      ∧ t = F.framing.template (code a) (length a) u ∧ length a ≤ 0xffff := by
  intro c c' a hrun
  rcases Header.expect_cases F.element c with
    ⟨n, -, herror⟩ | ⟨h, rest, -, -, herror⟩ | ⟨h, body, tail, ho, -⟩
  · rw [run_decode_of_error herror] at hrun
    cases (Prod.mk.inj hrun).1
  · rw [run_decode_of_error herror] at hrun
    cases (Prod.mk.inj hrun).1
  · rw [run_decode ho] at hrun
    obtain ⟨layout, hlayout, hfits, hbody, pad, hpad, rfl⟩ := exists_layout hrun
    obtain ⟨u, hu, hubody, hagain⟩ := hlayouts h layout hlayout h body a hfits ho.size_eq hbody
    obtain ⟨hcode, hlength⟩ := hS h.code a u hu
    -- the header that is written is the one that was read
    have hsize : h.size = length a := by rw [ho.size_eq, hlength, hubody.length_eq]
    have hheader : h.octets = bigEndian 2 (code a) ++ bigEndian 2 (length a) := by
      rw [Header.octets, hcode, hsize]
    refine ⟨_, h.octets ++ (body ++ pad),
      ⟨u, hcode ▸ hu, rfl, hsize ▸ Nat.le_of_lt_succ h.length.toNat_lt⟩, ?_, ?_, trivial, ?_⟩
    · rw [Framing.template, ← hheader, ← hsize]
      exact (fits_exact_iff.2 rfl).append (hubody.append (fits_blanks_iff.2 hpad))
    · rw [ho.octets_eq, List.append_assoc, List.append_assoc]
    · intro bs' after hfits' _ pos
      rw [Framing.template, ← hheader, ← hsize] at hfits'
      obtain ⟨_, bs', rfl, hfirst, hrest⟩ := fits_append_iff.1 hfits'
      obtain ⟨body', pad', rfl, hbody', hpad'⟩ := fits_append_iff.1 hrest
      obtain rfl := fits_exact_iff.1 hfirst
      rw [fits_blanks_iff] at hpad'
      -- other octets in the open places make a record with the same header
      have ho' : h.Opens body' (pad' ++ after) (h.octets ++ (body' ++ pad') ++ after) := by
        refine ⟨by simp only [List.append_assoc], ?_⟩
        rw [hsize, hlength, hbody'.length_eq]
      rw [run_decode (c := ⟨pos, h.octets ++ (body' ++ pad') ++ after⟩) ho',
        outcome_of_fits hlayout (ne_false_of_eq_true hfits), hagain body' hbody']
      refine (Header.close_padding hpad' (.ok a)).trans ?_
      rw [ho'.size_eq, List.length_append, List.length_append, Header.length_octets, Nat.add_assoc]

end RecordFormat

/-! ## Structures that declare their own length -/

namespace Decoder

theorem run_need_ok {e : Element} {n : Nat} {c c' : Cursor} {u : Unit}
    (h : (need e n).run c = (.ok u, c')) : c' = c ∧ n ≤ c.rest.length := by
  by_cases hn : n ≤ c.rest.length
  · rw [run_need_of_le hn] at h
    exact ⟨(Prod.mk.inj h).2.symm, hn⟩
  · rw [run_need_of_lt (Nat.lt_of_not_le hn)] at h
    cases (Prod.mk.inj h).1

theorem run_lengthField {offset : Nat} {c : Cursor} (h : offset + 2 ≤ c.rest.length) :
    (ahead (do skip offset; word 2)).run c
      = (.ok (Octets.toNat ((c.rest.drop offset).take 2)), c) := by
  have hskip : (skip offset).run c = (.ok (), c.advance offset) := run_skip_of_le (by omega)
  have hfield : 2 ≤ (c.advance offset).rest.length := by
    rw [Cursor.rest_advance, List.length_drop]
    omega
  rw [run_ahead, run_bind_ok hskip, word, run_bind_ok (run_octets_of_le hfield)]
  rfl

/-- Where the declared length can be read, all else depends on it. -/
theorem run_measured_of_le (e : Element) {least offset length : Nat} (hoffset : offset + 2 ≤ least)
    {c : Cursor} (hleast : least ≤ c.rest.length)
    (hlength : Octets.toNat ((c.rest.drop offset).take 2) = length) (d : Decoder α) :
    (measured e least offset d).run c
      = (if length < least then (do fail (.invalidLength e 0 length); need e length; within length d)
        else do need e length; within length d : Decoder α).run c := by
  have hneed : (need e least).run c = (.ok (), c) := run_need_of_le hleast
  have hfield := run_lengthField (Nat.le_trans hoffset hleast)
  rw [hlength] at hfield
  unfold measured
  rw [run_bind_ok hneed, run_bind_ok hfield]

/-- The declared length reaches beyond what there is. -/
theorem run_measured_of_lt (e : Element) {least offset length : Nat} (hoffset : offset + 2 ≤ least)
    {c : Cursor} (hleast : least ≤ c.rest.length)
    (hlength : Octets.toNat ((c.rest.drop offset).take 2) = length) (hcovers : least ≤ length)
    (hshort : c.rest.length < length) (d : Decoder α) :
    (measured e least offset d).run c = (.error (.truncated e length c.rest.length), c) := by
  rw [run_measured_of_le e hoffset hleast hlength, if_neg (Nat.not_lt.2 hcovers)]
  exact run_bind_error (run_need_of_lt hshort)

/-- A structure that declares its length is cut out of what there is, or something is wrong with its
    length before anything is read. -/
theorem run_measured_cases (e : Element) {least offset : Nat} (hoffset : offset + 2 ≤ least)
    (c : Cursor) :
    (∃ error : DecodeError, error.unknownCode? = none
        ∧ ∀ d : Decoder α, (measured e least offset d).run c = (.error error, c))
      ∨ ∃ chunk tail : Octets, c.rest = chunk ++ tail ∧ least ≤ chunk.length
        ∧ Octets.toNat ((c.rest.drop offset).take 2) = chunk.length
        ∧ ∀ d : Decoder α, (measured e least offset d).run c
          = ((d.run (.start chunk)).1, c.advance chunk.length) := by
  by_cases hleast : least ≤ c.rest.length
  · obtain ⟨length, hfield⟩ : ∃ length, Octets.toNat ((c.rest.drop offset).take 2) = length :=
      ⟨_, rfl⟩
    by_cases hsmall : length < least
    · refine .inl ⟨.invalidLength e 0 length, rfl, fun d => ?_⟩
      rw [run_measured_of_le e hoffset hleast hfield, if_pos hsmall]
      rfl
    have hcovers : least ≤ length := Nat.le_of_not_lt hsmall
    by_cases hlength : length ≤ c.rest.length
    · have hchunk : (c.rest.take length).length = length := by
        rw [List.length_take, Nat.min_eq_left hlength]
      refine .inr ⟨c.rest.take length, c.rest.drop length, (List.take_append_drop _ _).symm, ?_, ?_,
        fun d => ?_⟩
      · rwa [hchunk]
      · rw [hfield, hchunk]
      · rw [run_measured_of_le e hoffset hleast hfield, if_neg hsmall,
          run_bind_ok (run_need_of_le hlength), run_within_ok (run_octets_of_le hlength), hchunk]
    · exact .inl ⟨.truncated e length c.rest.length, rfl,
        run_measured_of_lt e hoffset hleast hfield hcovers (Nat.lt_of_not_le hlength)⟩
  · refine .inl ⟨.truncated e least c.rest.length, rfl, fun d => ?_⟩
    unfold measured
    rw [run_bind_error (run_need_of_lt (Nat.lt_of_not_le hleast))]

/-- A structure that declares its length in its first two octets is cut out of what there is. -/
theorem run_measured_inv {e : Element} {least : Nat} (hleast : 2 ≤ least) {d : Decoder α}
    {c c' : Cursor} {a : α} (h : (measured e least 0 d).run c = (.ok a, c')) :
    ∃ chunk more : Octets, chunk.length < 65536 ∧ least ≤ chunk.length
      ∧ c.rest = chunk ++ c'.rest ∧ c.rest = bigEndian 2 chunk.length ++ more
      ∧ (d.run (.start chunk)).1 = .ok a := by
  rcases run_measured_cases (α := α) e (show 0 + 2 ≤ least from hleast) c with
    ⟨error, -, herror⟩ | ⟨chunk, tail, hrest, hcovers, hfield, hrun⟩
  · cases (herror d).symm.trans h
  · obtain ⟨hresult, rfl⟩ := Prod.mk.inj ((hrun d).symm.trans h)
    rw [List.drop_zero] at hfield
    have hwidth : (c.rest.take 2).length = 2 := by
      rw [List.length_take, hrest, List.length_append]
      omega
    have hfirst : bigEndian 2 chunk.length = c.rest.take 2 := by
      have hoctets := bigEndian_toNat (c.rest.take 2)
      rwa [hwidth, hfield] at hoctets
    refine ⟨chunk, c.rest.drop 2, ?_, hcovers, ?_, ?_, hresult⟩
    · have hlt := Octets.toNat_lt (c.rest.take 2)
      rwa [hfield, hwidth] at hlt
    · rw [Cursor.rest_advance, hrest, List.drop_left]
    · rw [hfirst, List.take_append_drop]

/-- A structure that begins with its length: the length counts, although the decoder of the
    structure steps over it. -/
theorem follows_measured {e : Element} {least : Nat} (hwide : 2 ≤ least) {d : Decoder α}
    {S : α → Template → Prop}
    (hd : d.Follows atEnd fun a t => ∃ u, t = blanks 2 ++ u
      ∧ (t.length < 65536 → S a (exact (bigEndian 2 t.length) ++ u))) :
    (measured e least 0 d).Follows anywhere S := by
  intro c c' a hrun
  obtain ⟨chunk, more, hlt, hleast, hrest, hmore, hresult⟩ := run_measured_inv hwide hrun
  rcases hbody : d.run (.start chunk) with ⟨result, c₁⟩
  obtain rfl : result = .ok a := by rw [← hresult, hbody]
  obtain ⟨t, bs, ⟨u, rfl, hS⟩, hbs, hchunk, hend, hreads⟩ := hd _ _ _ hbody
  obtain rfl : chunk = bs := by
    rw [List.length_eq_zero_iff.1 hend, List.append_nil] at hchunk
    exact hchunk
  obtain ⟨first, after, rfl, hfirst, hafter⟩ := fits_append_iff.1 hbs
  have hlength : (blanks 2 ++ u).length = (first ++ after).length := hbs.length_eq
  rw [fits_blanks_iff] at hfirst
  -- both the structure and the length field stand at the beginning
  have hfield : first = bigEndian 2 (first ++ after).length := by
    have htake := congrArg (List.take 2) (hrest.symm.trans hmore)
    rwa [List.append_assoc, List.take_left' hfirst, List.take_left' (length_bigEndian 2 _)] at htake
  refine ⟨_, first ++ after, hS (hlength ▸ hlt), ?_, hrest, trivial, ?_⟩
  · rw [hlength, ← hfield]
    exact (fits_exact_iff.2 rfl).append hafter
  · intro bs' tail hfits' _
    obtain ⟨_, after', rfl, hfirst', hafter'⟩ := fits_append_iff.1 hfits'
    obtain rfl := fits_exact_iff.1 hfirst'
    have hagain : d.ReadsBefore [] (bigEndian 2 (blanks 2 ++ u).length ++ after') a :=
      hreads _ [] ((fits_blanks_iff.2 (length_bigEndian 2 _)).append hafter') rfl
    have hlength' : (bigEndian 2 (blanks 2 ++ u).length ++ after').length
        = (blanks 2 ++ u).length := by
      rw [List.length_append, List.length_append, length_bigEndian, length_blanks,
        hafter'.length_eq]
    have hopen : bigEndian 2 (blanks 2 ++ u).length ++ after' = [] ++
        (bigEndian 2 (bigEndian 2 (blanks 2 ++ u).length ++ after').length ++ after') := by
      rw [hlength', List.nil_append]
    refine reads_measured hopen rfl ?_ ?_ hagain tail
    · rw [hlength', hlength]
      exact hlt
    · rw [hlength', hlength]
      exact hleast

end Decoder

end OpenFlow
