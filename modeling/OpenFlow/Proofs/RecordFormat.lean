import OpenFlow.Scan
import OpenFlow.Proofs.Framing
import OpenFlow.Proofs.Octets.Walk
import OpenFlow.Proofs.Oxm.Header

set_option autoImplicit false

/-! # Formats of records

Actions, instructions and properties are all read in one way: the header tells the kind, the kind
has a layout or has none, and padding may come after the record. `RecordFormat` is what the families
differ in. `RecordFormat.run_decode` tells what a record comes to that is there in full: it is a
function of its header and its body, and whatever reads or steps over the record without looking
into it ends at the same place (`Header.close`). -/

namespace OpenFlow

variable {α β : Type}

/-! ## Where a record ends -/

namespace Header

/-- The result of a record that was opened at `c`, and the cursor after the record. Padding that the
    length does not cover has to be there. -/
def close (h : Header) (e : Element) (framing : Framing) (tail : Octets) (c : Cursor)
    (result : Except DecodeError α) : Except DecodeError α × Cursor :=
  match framing with
  | .paddingIncluded => (result, h.after tail c)
  | .paddingExcluded =>
    if gap h.size ≤ tail.length then
      (result, ⟨c.pos + padded h.size, tail.drop (gap h.size)⟩)
    else (.error (.truncated e (gap h.size) tail.length), h.after tail c)

end Header

namespace Decoder

theorem run_skipPadding (e : Element) (h : Header) (tail : Octets) (c : Cursor) :
    (skipPadding e h.size).run (h.after tail c) = h.close e .paddingExcluded tail c (.ok ()) := by
  by_cases hgap : gap h.size ≤ tail.length
  · have hneed : (need e (gap h.size)).run (h.after tail c) = (.ok (), h.after tail c) :=
      run_need_of_le hgap
    have hskip : (skip (gap h.size)).run (h.after tail c)
        = (.ok (), (h.after tail c).advance (gap h.size)) := run_skip_of_le hgap
    unfold skipPadding
    rw [run_bind_ok hneed, hskip, Header.close, if_pos hgap]
    show _ = (_, (⟨c.pos + (h.size + gap h.size), _⟩ : Cursor))
    rw [← Nat.add_assoc]
    rfl
  · have hneed : (need e (gap h.size)).run (h.after tail c)
        = (.error (.truncated e (gap h.size) tail.length), h.after tail c) :=
      run_need_of_lt (Nat.lt_of_not_le hgap)
    unfold skipPadding
    rw [run_bind_error hneed, Header.close, if_neg hgap]

/-- What is done after a record without moving the cursor changes the result and nothing else. -/
theorem run_bind_close {d : Decoder α} {f : α → Decoder β} {a : α} {result : Except DecodeError β}
    {e : Element} {framing : Framing} {h : Header} {tail : Octets} {c c' : Cursor}
    (hd : d.run c = h.close e framing tail c' (.ok a)) (hf : ∀ c, (f a).run c = (result, c)) :
    (d >>= f).run c = h.close e framing tail c' result := by
  cases framing with
  | paddingIncluded => rw [run_bind_ok hd, hf, Header.close]
  | paddingExcluded =>
    by_cases hgap : gap h.size ≤ tail.length
    · rw [Header.close, if_pos hgap] at hd
      rw [run_bind_ok hd, hf, Header.close, if_pos hgap]
    · rw [Header.close, if_neg hgap] at hd
      rw [run_bind_error hd, Header.close, if_neg hgap]

/-- Padding is stepped over if the length does not cover it, and then `d` is run, which stays where
    it is. -/
theorem run_close {framing : Framing} {d : Decoder α} {result : Except DecodeError α}
    (hd : ∀ c, d.run c = (result, c)) (e : Element) (h : Header) (tail : Octets) (c : Cursor) :
    (do if framing = .paddingExcluded then skipPadding e h.size
        d : Decoder α).run (h.after tail c) = h.close e framing tail c result := by
  cases framing with
  | paddingIncluded => exact hd (h.after tail c)
  | paddingExcluded => exact run_bind_close (run_skipPadding e h tail c) hd

end Decoder

/-! ## Records that are not looked into -/

namespace Header

variable {h : Header} {body tail : Octets} {c : Cursor}

theorem Opens.size_le (ho : h.Opens body tail c.rest) : h.size ≤ c.rest.length := by
  obtain ⟨hrest, hsize⟩ := ho
  rw [hrest, List.length_append, length_octets, List.length_append]
  omega

theorem Opens.advance_eq (ho : h.Opens body tail c.rest) : c.advance h.size = h.after tail c := by
  obtain ⟨hrest, hsize⟩ := ho
  have hdrop : c.rest.drop h.size = tail := by
    rw [hrest, ← List.append_assoc]
    exact List.drop_left' (by rw [List.length_append, length_octets, hsize])
  rw [Cursor.advance, hdrop]
  rfl

theorem run_skipElement {e : Element} {framing : Framing} (ho : h.Opens body tail c.rest) :
    (skipElement e framing).run c = h.close e framing tail c (.ok h) := by
  unfold skipElement
  rw [Decoder.run_bind_ok (run_expect ho), Decoder.run_bind_ok (Decoder.run_skip_of_le ho.size_le),
    ho.advance_eq]
  exact Decoder.run_close (fun _ => rfl) e h tail c

/-- A record of an unknown kind is stepped over, and reported if it was there in full. -/
theorem run_skipUnknown {e : Element} {framing : Framing} (ho : h.Opens body tail c.rest) :
    (skipUnknown e framing : Decoder α).run c
      = h.close e framing tail c (.error (.unknownKind e h.code h.size)) := by
  unfold skipUnknown
  exact Decoder.run_bind_close (run_skipElement ho) fun _ => rfl

end Header

theorem RawRecord.run_decode {e : Element} {framing : Framing} {h : Header} {body tail : Octets}
    {c : Cursor} (ho : h.Opens body tail c.rest) :
    (decode e framing).run c
      = h.close e framing tail c (.ok ⟨h, body, framing.stride h.size⟩) := by
  obtain ⟨hrest, hsize⟩ := ho
  have hskip : (Decoder.skip headerLength).run c
      = (.ok (), ⟨c.pos + headerLength, body ++ tail⟩) := by
    have hread := Decoder.reads_skip h.length_octets (body ++ tail) c.pos
    rw [← hrest, Header.length_octets] at hread
    exact hread
  have hbody : (Decoder.octets (h.size - headerLength)).run ⟨c.pos + headerLength, body ++ tail⟩
      = (.ok body, h.after tail c) := by
    rw [hsize, Nat.add_sub_cancel_left, Decoder.run_octets_append, Header.after, hsize,
      Nat.add_assoc]
  unfold decode
  rw [Decoder.run_bind_ok (Header.run_expect ⟨hrest, hsize⟩), Decoder.run_bind_ok hskip,
    Decoder.run_bind_ok hbody]
  exact Decoder.run_close (fun _ => rfl) e h tail c

theorem RawField.reads_decode {h : OxmHeader} {payload : Octets}
    (hlength : h.payloadLength = payload.length) :
    decode.Reads (h.octets ++ payload) ⟨h, payload⟩ := by
  have hskip : (Decoder.skip OxmHeader.width).Reads h.octets () :=
    Decoder.reads_skip h.length_octets
  have hpayload := (Decoder.reads_octets payload).map (RawField.mk h)
  rw [← hlength] at hpayload
  intro tail
  have ho : h.Opens payload tail (h.octets ++ payload ++ tail) :=
    ⟨List.append_assoc _ _ _, hlength⟩
  unfold decode
  refine Decoder.ReadsBefore.bind_nil (fun pos => OxmHeader.run_expect ho) ?_
  exact (hskip.bind hpayload) tail

/-! ## Records that are read by their kind -/

/-- What the families of records differ in. -/
structure RecordFormat (α : Type) where
  element : Element
  framing : Framing
  /-- How records of a kind code are laid out, if that can be told. -/
  layout? : Nat → Option (Layout α)

namespace RecordFormat

/-- Reads a record; one whose kind has no layout is stepped over. -/
def decode (F : RecordFormat α) : Decoder α := do
  let h ← Header.expect F.element
  match F.layout? h.code with
  | some layout =>
    let a ← Decoder.element F.element h.code layout
    if F.framing = .paddingExcluded then
      Decoder.skipPadding F.element h.size
    return a
  | none => Header.skipUnknown F.element F.framing

/-- What a record comes to whose header and body are there. -/
def outcome (F : RecordFormat α) (h : Header) (body tail : Octets) (c : Cursor) :
    Except DecodeError α × Cursor :=
  match F.layout? h.code with
  | none => h.close F.element F.framing tail c (.error (.unknownKind F.element h.code h.size))
  | some layout =>
    if layout.fits h.size = false then (.error (.invalidLength F.element h.code h.size), c)
    else match ((layout.body h).run ⟨headerLength, body⟩).1 with
      | .ok a => h.close F.element F.framing tail c (.ok a)
      | .error e => (.error e, h.after tail c)

section Outcome

variable {F : RecordFormat α} {layout : Layout α} {h : Header} {body tail : Octets} {c : Cursor}

theorem outcome_of_unknown (hlayout : F.layout? h.code = none) :
    F.outcome h body tail c
      = h.close F.element F.framing tail c (.error (.unknownKind F.element h.code h.size)) := by
  unfold outcome
  rw [hlayout]

theorem outcome_of_unfit (hlayout : F.layout? h.code = some layout)
    (hfits : layout.fits h.size = false) :
    F.outcome h body tail c = (.error (.invalidLength F.element h.code h.size), c) := by
  unfold outcome
  rw [hlayout]
  exact if_pos hfits

theorem outcome_of_fits (hlayout : F.layout? h.code = some layout)
    (hfits : ¬ layout.fits h.size = false) :
    F.outcome h body tail c = match ((layout.body h).run ⟨headerLength, body⟩).1 with
      | .ok a => h.close F.element F.framing tail c (.ok a)
      | .error e => (.error e, h.after tail c) := by
  unfold outcome
  rw [hlayout]
  exact if_neg hfits

/-- Reading a record that is there in full. -/
theorem run_decode (ho : h.Opens body tail c.rest) : F.decode.run c = F.outcome h body tail c := by
  unfold decode
  rw [Decoder.run_bind_ok (Header.run_expect ho)]
  cases hlayout : F.layout? h.code with
  | none =>
    rw [outcome_of_unknown hlayout]
    exact Header.run_skipUnknown ho
  | some layout =>
    -- the kind is the one in the header, so the element cannot be of another
    have helement := Decoder.run_element F.element h.code layout ho
    rw [if_neg (not_not_intro rfl)] at helement
    show (Decoder.element F.element h.code layout >>= fun a => do
      if F.framing = .paddingExcluded then Decoder.skipPadding F.element h.size
      return a : Decoder α).run c = _
    by_cases hfits : layout.fits h.size = false
    · rw [if_pos hfits] at helement
      rw [Decoder.run_bind_error helement, outcome_of_unfit hlayout hfits]
    · rw [if_neg hfits] at helement
      rw [outcome_of_fits hlayout hfits]
      rcases hbody : ((layout.body h).run ⟨headerLength, body⟩).1 with e | a
      · rw [hbody] at helement
        rw [Decoder.run_bind_error helement]
      · rw [hbody] at helement
        rw [Decoder.run_bind_ok helement]
        exact Decoder.run_close (fun _ => rfl) F.element h tail c

end Outcome

/-! ## Decoders that follow a format -/

/-- Where no record is there in full, neither is one read. -/
theorem run_decode_of_error {F : RecordFormat α} {c : Cursor} {e : DecodeError}
    (h : (Header.expect F.element).run c = (.error e, c)) : F.decode.run c = (.error e, c) := by
  unfold decode
  rw [Decoder.run_bind_error h]

/-- A decoder that begins with the header follows the format if it does so for every record that is
    there in full. -/
theorem eq_decode {F : RecordFormat α} {f : Header → Decoder α}
    (hf : ∀ {h : Header} {body tail : Octets} {c : Cursor}, h.Opens body tail c.rest →
      (f h).run c = F.outcome h body tail c) :
    (Header.expect F.element >>= f) = F.decode := by
  funext c
  show (Header.expect F.element >>= f).run c = F.decode.run c
  rcases Header.expect_cases F.element c with
    ⟨n, -, hrun⟩ | ⟨h, rest, -, -, hrun⟩ | ⟨h, body, tail, ho, hrun⟩
  · rw [Decoder.run_bind_error hrun, run_decode_of_error hrun]
  · rw [Decoder.run_bind_error hrun, run_decode_of_error hrun]
  · rw [Decoder.run_bind_ok hrun, run_decode ho, hf ho]

/-- Reading an element of the kind in the header, where lengths cover the padding. -/
theorem run_element_eq {F : RecordFormat α} (hF : F.framing = .paddingIncluded) {layout : Layout α}
    {h : Header} {body tail : Octets} {c : Cursor} (hlayout : F.layout? h.code = some layout)
    (ho : h.Opens body tail c.rest) :
    (Decoder.element F.element h.code layout).run c = F.outcome h body tail c := by
  rw [Decoder.run_element F.element h.code layout ho, if_neg (not_not_intro rfl)]
  by_cases hfits : layout.fits h.size = false
  · rw [if_pos hfits, outcome_of_unfit hlayout hfits]
  · rw [if_neg hfits, outcome_of_fits hlayout hfits, hF]
    rcases ((layout.body h).run ⟨headerLength, body⟩).1 with e | a
    · rfl
    · rfl

/-- Reading an element of the kind in the header, where lengths do not cover the padding. -/
theorem run_elementPadded_eq {F : RecordFormat α} (hF : F.framing = .paddingExcluded)
    {layout : Layout α} {h : Header} {body tail : Octets} {c : Cursor}
    (hlayout : F.layout? h.code = some layout) (ho : h.Opens body tail c.rest) :
    (Decoder.elementPadded F.element h.code layout).run c = F.outcome h body tail c := by
  have helement := Decoder.run_element F.element h.code
    ⟨layout.fits, fun h => do return (h.size, ← layout.body h)⟩ ho
  rw [if_neg (not_not_intro rfl)] at helement
  unfold Decoder.elementPadded
  by_cases hfits : layout.fits h.size = false
  · rw [if_pos hfits] at helement
    rw [outcome_of_unfit hlayout hfits, Decoder.run_bind_error helement]
  · rw [if_neg hfits] at helement
    rw [outcome_of_fits hlayout hfits, hF]
    rcases hrun : (layout.body h).run ⟨headerLength, body⟩ with ⟨e | a, c'⟩
    · have hpair : (do return (h.size, ← layout.body h) : Decoder (Nat × α)).run
          ⟨headerLength, body⟩ = (.error e, c') := Decoder.run_bind_error hrun
      rw [hpair] at helement
      exact Decoder.run_bind_error helement
    -- after the element, its padding has to be there as well
    · have hpair : (do return (h.size, ← layout.body h) : Decoder (Nat × α)).run
          ⟨headerLength, body⟩ = (.ok (h.size, a), c') := Decoder.run_bind_ok hrun
      rw [hpair] at helement
      refine (Decoder.run_bind_ok helement).trans ?_
      exact Decoder.run_bind_close (Decoder.run_skipPadding F.element h tail c) fun _ => rfl

end RecordFormat

/-- What reading an element with padding after it comes to: there is none, or one of another kind,
    or it is read as a record of the format of its layout. -/
theorem Decoder.elementPadded_cases (e : Element) (code : Nat) (layout : Layout α) (c : Cursor) :
    (∃ needed, c.rest.length < needed
      ∧ (elementPadded e code layout).run c = (.error (.truncated e needed c.rest.length), c))
    ∨ (∃ h : Header, (elementPadded e code layout).run c
        = (.error (.invalidLength e h.code h.size), c))
    ∨ ∃ (h : Header) (body tail : Octets), h.Opens body tail c.rest
      ∧ ((h.code ≠ code
          ∧ (elementPadded e code layout).run c = (.error (.kindMismatch e code h.code), c))
        ∨ (h.code = code ∧ (elementPadded e code layout).run c
          = RecordFormat.outcome ⟨e, .paddingExcluded, fun _ => some layout⟩ h body tail c)) := by
  rcases Header.expect_cases e c with
    ⟨needed, hneeded, herror⟩ | ⟨h, rest, -, -, herror⟩ | ⟨h, body, tail, ho, -⟩
  · exact .inl ⟨needed, hneeded, run_bind_error (run_element_of_error herror)⟩
  · exact .inr (.inl ⟨h, run_bind_error (run_element_of_error herror)⟩)
  · refine .inr (.inr ⟨h, body, tail, ho, ?_⟩)
    by_cases hcode : h.code = code
    · subst hcode
      exact .inr ⟨rfl, RecordFormat.run_elementPadded_eq
        (F := ⟨e, .paddingExcluded, fun _ => some layout⟩) rfl rfl ho⟩
    · have helement :=
        run_element e code ⟨layout.fits, fun h => do return (h.size, ← layout.body h)⟩ ho
      rw [if_pos hcode] at helement
      exact .inl ⟨hcode, run_bind_error helement⟩

end OpenFlow
