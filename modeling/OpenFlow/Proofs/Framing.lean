import OpenFlow.Header
import OpenFlow.Proofs.Octets.Reading

set_option autoImplicit false

/-! # Elements cut out by their headers

`h.Opens body tail bs` says that the octets `bs` begin with an element whose header is `h`; `body`
is what the header announces, and `tail` is what comes after the element. `Header.expect_cases`
tells all that looking for a header can come to: the octets do not begin with an element, or they
do and its header is found. Everything that is cut out by a header is then a function of the header
and the body (`Decoder.run_element`), and leaves the cursor either where it was or right after the
element. -/

namespace OpenFlow

/-! ## Headers as octets -/

namespace Header

/-- The header of a code and a length that fit into it. -/
def ofNats (code size : Nat) : Header := ⟨UInt16.ofNat code, UInt16.ofNat size⟩

theorem code_ofNats {code : Nat} (size : Nat) (h : code < 65536) : (ofNats code size).code = code :=
  UInt16.toNat_ofNat_of_lt' h

theorem size_ofNats (code : Nat) {size : Nat} (h : size < 65536) : (ofNats code size).size = size :=
  UInt16.toNat_ofNat_of_lt' h

theorem octets_ofNats {code size : Nat} (hcode : code < 65536) (hsize : size < 65536) :
    (ofNats code size).octets = bigEndian 2 code ++ bigEndian 2 size := by
  rw [octets, code_ofNats size hcode, size_ofNats code hsize]

@[simp] theorem length_octets (h : Header) : h.octets.length = headerLength := by
  simp [octets, headerLength]

/-- A header and a body are as many octets as the header says that they are. -/
theorem length_headed (code : Nat) {size : Nat} {body : Octets}
    (h : size = headerLength + body.length) :
    (bigEndian 2 code ++ bigEndian 2 size ++ body).length = size := by
  rw [h, List.length_append, List.length_append, length_bigEndian, length_bigEndian]
  rfl

theorem headed_ne_nil (code size : Nat) (body : Octets) :
    bigEndian 2 code ++ bigEndian 2 size ++ body ≠ [] := by
  apply List.length_pos_iff.1
  rw [List.length_append, List.length_append, length_bigEndian, length_bigEndian]
  omega

theorem reads_read (h : Header) : read.Reads h.octets h := by
  have hlength := (Decoder.reads_u16 h.length).map fun length => Header.mk h.kind length
  exact (Decoder.reads_u16 h.kind).bind hlength

/-- Octets begin with one header at most. -/
theorem octets_append_inj {h h' : Header} {rest rest' : Octets}
    (heq : h.octets ++ rest = h'.octets ++ rest') : h = h' ∧ rest = rest' := by
  have hrun := reads_read h rest 0
  rw [heq, reads_read h' rest' 0] at hrun
  obtain ⟨hheader, hcursor⟩ := Prod.mk.inj hrun
  exact ⟨(Except.ok.inj hheader).symm, (congrArg Cursor.rest hcursor).symm⟩

end Header

/-- Any four octets are a header. -/
theorem Header.exists_octets (bs : Octets) (h : headerLength ≤ bs.length) :
    ∃ (header : Header) (rest : Octets), bs = header.octets ++ rest := by
  have hlength : 4 ≤ bs.length := h
  have hfirst : (bs.take 2).length = 2 := by
    rw [List.length_take]
    omega
  have hsecond : ((bs.drop 2).take 2).length = 2 := by
    rw [List.length_take, List.length_drop]
    omega
  have hkind : bigEndian 2 (UInt16.ofNat (Octets.toNat (bs.take 2))).toNat = bs.take 2 :=
    bigEndian_toNat_mod hfirst
  have hsize : bigEndian 2 (UInt16.ofNat (Octets.toNat ((bs.drop 2).take 2))).toNat
      = (bs.drop 2).take 2 := bigEndian_toNat_mod hsecond
  refine ⟨⟨UInt16.ofNat (Octets.toNat (bs.take 2)),
    UInt16.ofNat (Octets.toNat ((bs.drop 2).take 2))⟩, (bs.drop 2).drop 2, ?_⟩
  unfold Header.octets Header.code Header.size
  rw [hkind, hsize, List.append_assoc, List.take_append_drop, List.take_append_drop]

/-! ## Looking for a header -/

namespace Decoder

variable {α : Type}

theorem run_need_of_le {e : Element} {n : Nat} {c : Cursor} (h : n ≤ c.rest.length) :
    (need e n).run c = (.ok (), c) := if_pos h

theorem run_need_of_lt {e : Element} {n : Nat} {c : Cursor} (h : c.rest.length < n) :
    (need e n).run c = (.error (.truncated e n c.rest.length), c) := if_neg (Nat.not_le.2 h)

theorem readsBefore_need {e : Element} {n : Nat} {rest : Octets} (h : n ≤ rest.length) :
    (need e n).ReadsBefore rest [] () := by
  intro pos
  exact run_need_of_le h

end Decoder

namespace Header

/-- The octets `bs` begin with an element of the header `h` and the body `body`, and `tail` comes
    after it. -/
structure Opens (h : Header) (body tail bs : Octets) : Prop where
  octets_eq : bs = h.octets ++ (body ++ tail)
  size_eq : h.size = headerLength + body.length

theorem opens_ofNats {code size : Nat} {body : Octets} (hcode : code < 65536) (hlt : size < 65536)
    (hsize : size = headerLength + body.length) (tail : Octets) :
    (ofNats code size).Opens body tail
      (bigEndian 2 code ++ bigEndian 2 size ++ body ++ tail) := by
  refine ⟨?_, ?_⟩
  · rw [octets_ofNats hcode hlt, List.append_assoc _ body]
  · rw [size_ofNats code hlt, hsize]

theorem run_read {h : Header} {pos : Nat} {rest : Octets} :
    (Decoder.ahead read).run ⟨pos, h.octets ++ rest⟩ = (.ok h, ⟨pos, h.octets ++ rest⟩) := by
  rw [Decoder.run_ahead, reads_read h rest pos]

theorem run_expect_of_short {e : Element} {c : Cursor} (h : c.rest.length < headerLength) :
    (expect e).run c = (.error (.truncated e headerLength c.rest.length), c) := by
  unfold expect
  rw [Decoder.run_bind_error (Decoder.run_need_of_lt h)]

/-- A header that is there is answered, unless its length does not cover it or reaches past the
    end. -/
theorem run_expect_octets {e : Element} {h : Header} {after : Octets} {c : Cursor}
    (hrest : c.rest = h.octets ++ after) :
    (expect e).run c =
      if h.size < headerLength then (.error (.invalidLength e h.code h.size), c)
      else if c.rest.length < h.size then (.error (.truncated e h.size c.rest.length), c)
      else (.ok h, c) := by
  obtain ⟨pos, rest⟩ := c
  have hneed : headerLength ≤ rest.length := by
    rw [show rest = _ from hrest, List.length_append, length_octets]
    exact Nat.le_add_right _ _
  have hread : (Decoder.ahead read).run ⟨pos, rest⟩ = (.ok h, ⟨pos, rest⟩) := by
    rw [show rest = _ from hrest]
    exact run_read
  unfold expect
  rw [Decoder.run_bind_ok (Decoder.run_need_of_le hneed), Decoder.run_bind_ok hread]
  show (if h.size < headerLength then _ else _ : Decoder Header).run _ = _
  by_cases hsmall : h.size < headerLength
  · rw [if_pos hsmall, if_pos hsmall]
    rfl
  · rw [if_neg hsmall, if_neg hsmall]
    by_cases hall : rest.length < h.size
    · rw [if_pos hall, Decoder.run_bind_error (Decoder.run_need_of_lt hall)]
    · rw [if_neg hall, Decoder.run_bind_ok (Decoder.run_need_of_le (Nat.le_of_not_lt hall))]
      rfl

theorem run_expect {e : Element} {h : Header} {body tail : Octets} {c : Cursor}
    (ho : h.Opens body tail c.rest) : (expect e).run c = (.ok h, c) := by
  have hlength : c.rest.length = headerLength + (body.length + tail.length) := by
    rw [ho.octets_eq, List.length_append, length_octets, List.length_append]
  have hsize := ho.size_eq
  rw [run_expect_octets ho.octets_eq, if_neg (by omega), if_neg (by omega)]

/-- What looking for a header comes to: there are too few octets for a header or for the element
    that it announces, the length does not cover the header, or an element is there. -/
theorem expect_cases (e : Element) (c : Cursor) :
    (∃ needed, c.rest.length < needed
      ∧ (expect e).run c = (.error (.truncated e needed c.rest.length), c))
    ∨ (∃ (h : Header) (rest : Octets), c.rest = h.octets ++ rest ∧ h.size < headerLength
      ∧ (expect e).run c = (.error (.invalidLength e h.code h.size), c))
    ∨ ∃ (h : Header) (body tail : Octets), h.Opens body tail c.rest
      ∧ (expect e).run c = (.ok h, c) := by
  by_cases hneed : headerLength ≤ c.rest.length
  · obtain ⟨h, after, hrest⟩ := exists_octets c.rest hneed
    have hrun := run_expect_octets (e := e) hrest
    by_cases hsmall : h.size < headerLength
    · rw [if_pos hsmall] at hrun
      exact .inr (.inl ⟨h, after, hrest, hsmall, hrun⟩)
    · rw [if_neg hsmall] at hrun
      by_cases hall : c.rest.length < h.size
      · rw [if_pos hall] at hrun
        exact .inl ⟨h.size, hall, hrun⟩
      · rw [if_neg hall] at hrun
        have hlength : c.rest.length = headerLength + after.length := by
          rw [hrest, List.length_append, length_octets]
        refine .inr (.inr ⟨h, after.take (h.size - headerLength),
          after.drop (h.size - headerLength), ⟨?_, ?_⟩, hrun⟩)
        · rw [List.take_append_drop]
          exact hrest
        · rw [List.length_take]
          omega
  · have hshort := Nat.lt_of_not_le hneed
    exact .inl ⟨headerLength, hshort, run_expect_of_short hshort⟩

/-- The cursor after an element that was opened at `c`. -/
def after (h : Header) (tail : Octets) (c : Cursor) : Cursor := ⟨c.pos + h.size, tail⟩

end Header

/-! ## Cutting an element out -/

namespace Decoder

variable {α : Type}

theorem run_octets_append (pos : Nat) (bs tail : Octets) :
    (octets bs.length).run ⟨pos, bs ++ tail⟩ = (.ok bs, ⟨pos + bs.length, tail⟩) :=
  reads_octets bs tail pos

/-- Where no element is there in full, neither is one read. -/
theorem run_element_of_error {e : Element} {code : Nat} {layout : Layout α} {c : Cursor}
    {error : DecodeError} (h : (Header.expect e).run c = (.error error, c)) :
    (element e code layout).run c = (.error error, c) := run_bind_error h

/-- An element of the right kind and of a length that its kind can have is read from its body
    alone, and passed over whatever reading it comes to. -/
theorem run_element (e : Element) (code : Nat) (layout : Layout α) {h : Header}
    {body tail : Octets} {c : Cursor} (ho : h.Opens body tail c.rest) :
    (element e code layout).run c =
      if h.code ≠ code then (.error (.kindMismatch e code h.code), c)
      else if layout.fits h.size = false then (.error (.invalidLength e code h.size), c)
      else (((layout.body h).run ⟨headerLength, body⟩).1, h.after tail c) := by
  unfold element
  rw [run_bind_ok (Header.run_expect ho)]
  show (if h.code ≠ code then _ else _ : Decoder α).run c = _
  by_cases hcode : h.code ≠ code
  · rw [if_pos hcode, if_pos hcode]
    rfl
  · rw [if_neg hcode, if_neg hcode]
    show (if layout.fits h.size = false then _ else _ : Decoder α).run c = _
    by_cases hfits : layout.fits h.size = false
    · rw [if_pos hfits, if_pos hfits]
      rfl
    · rw [if_neg hfits, if_neg hfits]
      -- the body is decoded from a cursor of its own, which has passed the header
      obtain ⟨pos, rest⟩ := c
      obtain ⟨hrest, hsize⟩ := ho
      have hchunk : (h.octets ++ body).length = h.size := by
        rw [List.length_append, Header.length_octets, hsize]
      have hcut : (octets h.size).run ⟨pos, rest⟩
          = (.ok (h.octets ++ body), ⟨pos + h.size, tail⟩) := by
        rw [show rest = _ from hrest, ← List.append_assoc, ← hchunk]
        exact run_octets_append pos _ tail
      have hskip : (skip headerLength).run (.start (h.octets ++ body))
          = (.ok (), ⟨headerLength, body⟩) := by
        have hread := reads_skip h.length_octets body 0
        rwa [Header.length_octets, Nat.zero_add] at hread
      rw [run_within_ok hcut, run_bind_ok hskip]
      rfl

/-! ## Reading an element back -/

section Written

variable {e : Element} {code size : Nat} {body : Octets}

theorem run_expect_ofNats (hcode : code < 65536) (hlt : size < 65536)
    (hsize : size = headerLength + body.length) (tail : Octets) (pos : Nat) :
    (Header.expect e).run ⟨pos, bigEndian 2 code ++ bigEndian 2 size ++ body ++ tail⟩
      = (.ok (.ofNats code size),
        ⟨pos, bigEndian 2 code ++ bigEndian 2 size ++ body ++ tail⟩) :=
  Header.run_expect (c := ⟨pos, _⟩) (Header.opens_ofNats hcode hlt hsize tail)

/-- Whatever is done with the header of an element, it is done with the one that was written. -/
theorem reads_expect_bind {f : Header → Decoder α} {a : α} {bs : Octets} (after : Octets)
    (hbs : bs = bigEndian 2 code ++ bigEndian 2 size ++ body ++ after) (hcode : code < 65536)
    (hlt : size < 65536) (hsize : size = headerLength + body.length)
    (hf : (f (.ofNats code size)).Reads bs a) : (Header.expect e >>= f).Reads bs a := by
  intro tail pos
  have hexpect : (Header.expect e).run ⟨pos, bs ++ tail⟩
      = (.ok (.ofNats code size), ⟨pos, bs ++ tail⟩) := by
    rw [hbs, List.append_assoc _ after]
    exact run_expect_ofNats hcode hlt hsize (after ++ tail) pos
  rw [run_bind_ok hexpect]
  exact hf tail pos

/-- An element is read back if its length is one that fits and its body is read back. -/
theorem reads_element {layout : Layout α} {a : α} (hcode : code < 65536)
    (hlt : size < 65536) (hsize : size = headerLength + body.length)
    (hfits : layout.fits size = true)
    (hbody : ((layout.body (.ofNats code size)).run ⟨headerLength, body⟩).1 = .ok a) :
    (element e code layout).Reads (bigEndian 2 code ++ bigEndian 2 size ++ body) a := by
  intro tail pos
  have hrun := run_element e code layout
    (c := ⟨pos, bigEndian 2 code ++ bigEndian 2 size ++ body ++ tail⟩)
    (Header.opens_ofNats hcode hlt hsize tail)
  rw [hrun, Header.code_ofNats size hcode, if_neg (not_not_intro rfl), Header.size_ofNats code hlt,
    if_neg (ne_false_of_eq_true hfits), hbody, Header.after, Header.size_ofNats code hlt,
    Header.length_headed code hsize]

/-- An element of one length is read back if its parameters are, which filler may come after. -/
theorem reads_fixed {d : Decoder α} {a : α} {params filler : Octets} (hcode : code < 65536)
    (hlt : size < 65536) (hsize : size = headerLength + body.length)
    (hbody : body = params ++ filler) (hd : d.Reads params a) :
    (fixed e code size d).Reads (bigEndian 2 code ++ bigEndian 2 size ++ body) a := by
  subst hbody
  exact reads_element hcode hlt hsize (beq_self_eq_true size) (hd.result headerLength filler)

/-- An element of a least length is read back if its body is, up to the end of the element. -/
theorem reads_atLeast {f : Header → Decoder α} {a : α} {least : Nat} (hcode : code < 65536)
    (hlt : size < 65536) (hsize : size = headerLength + body.length) (hleast : least ≤ size)
    (hf : (f (.ofNats code size)).ReadsBefore [] body a) :
    (atLeast e code least f).Reads (bigEndian 2 code ++ bigEndian 2 size ++ body) a :=
  reads_element hcode hlt hsize (decide_eq_true hleast) (hf.result headerLength)

/-- Padding is stepped over. -/
theorem reads_skipPadding (length : Nat) : (skipPadding e length).Reads (padding length) () := by
  intro tail pos
  have hneed : (need e (gap length)).run ⟨pos, padding length ++ tail⟩
      = (.ok (), ⟨pos, padding length ++ tail⟩) := by
    apply run_need_of_le
    rw [List.length_append, padding, length_zeros]
    exact Nat.le_add_right _ _
  unfold skipPadding
  rw [run_bind_ok hneed]
  exact reads_skip (length_zeros _) tail pos

/-- An element with padding after it is read back if its body is, up to the end of the element. -/
theorem reads_elementPadded {layout : Layout α} {a : α} (hcode : code < 65536)
    (hlt : size < 65536) (hsize : size = headerLength + body.length)
    (hfits : layout.fits size = true)
    (hbody : (layout.body (.ofNats code size)).ReadsBefore [] body a) :
    (elementPadded e code layout).Reads
      (bigEndian 2 code ++ bigEndian 2 size ++ body ++ padding size) a := by
  -- the length goes along with the value, since the padding depends on it
  have hsized : (do return ((Header.ofNats code size).size, ← layout.body (.ofNats code size)) :
      Decoder (Nat × α)).ReadsBefore [] body (size, a) := by
    rw [Header.size_ofNats code hlt]
    exact hbody.map fun a => (size, a)
  have hpadding : (do skipPadding e size; return a : Decoder α).Reads (padding size) a :=
    (reads_skipPadding size).map fun _ => a
  have helement : (element e code
      ⟨layout.fits, fun h => do return (h.size, ← layout.body h)⟩).Reads
      (bigEndian 2 code ++ bigEndian 2 size ++ body) (size, a) :=
    reads_element hcode hlt hsize hfits (hsized.result headerLength)
  unfold elementPadded
  exact helement.bind hpadding

end Written

/-- A structure that declares its own length, in the two octets after `before`, is read back if all
    of it is. -/
theorem reads_measured {e : Element} {least offset : Nat} {d : Decoder α} {a : α}
    {bs before rest : Octets} (hbs : bs = before ++ (bigEndian 2 bs.length ++ rest))
    (hoffset : before.length = offset) (hlt : bs.length < 65536) (hleast : least ≤ bs.length)
    (hd : d.ReadsBefore [] bs a) : (measured e least offset d).Reads bs a := by
  intro tail pos
  have hneed (n : Nat) (hn : n ≤ bs.length) :
      (need e n).run ⟨pos, bs ++ tail⟩ = (.ok (), ⟨pos, bs ++ tail⟩) := by
    apply run_need_of_le
    rw [List.length_append]
    omega
  have hword : (do skip offset; word 2 : Decoder Nat).Reads
      (before ++ bigEndian 2 bs.length) bs.length :=
    (reads_skip hoffset).bind (reads_word_bigEndian 2 bs.length hlt)
  have hahead : (ahead (do skip offset; word 2)).run ⟨pos, bs ++ tail⟩
      = (.ok bs.length, ⟨pos, bs ++ tail⟩) := by
    have hsplit : bs ++ tail = before ++ bigEndian 2 bs.length ++ (rest ++ tail) := by
      rw [← List.append_assoc, List.append_assoc before, ← hbs]
    have h := readsBefore_ahead (hword (rest ++ tail)) pos
    rwa [List.nil_append, ← hsplit] at h
  unfold measured
  rw [run_bind_ok (hneed least hleast), run_bind_ok hahead]
  show (if bs.length < least then _ else _ : Decoder α).run _ = _
  rw [if_neg (Nat.not_lt.2 hleast), run_bind_ok (hneed bs.length (Nat.le_refl _))]
  exact reads_within rfl (hd.result 0) tail pos

end Decoder

end OpenFlow
