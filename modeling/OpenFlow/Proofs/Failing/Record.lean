import OpenFlow.Proofs.KeyedSet.Reading
import OpenFlow.Proofs.Octets.Regular
import OpenFlow.Proofs.Octets.Restricting

set_option autoImplicit false

/-! # How reading a record may fail

A record behind a header fails regularly if each of its bodies does on as many octets as the
lengths that fit leave for it (`Layout.Regular`, `RecordFormat.regular_decode`), and so does a
structure that declares its own length (`Decoder.regular_measured`). Sequences and sets of such
records fail regularly too, and where they have to take up all the octets, nothing is ever left
(`Sequence.failsRegularly`, `KeyedSet.failsRegularly`). Scans look at headers alone
(`Scan.fails_records`). -/

namespace OpenFlow

open Decoder

variable {α : Type}

/-! ## Behind a header -/

namespace Header

/-- Looking for a header fails regularly, so only records that are there in full matter. -/
theorem regular_of_opens {e : Element} {f : Header → Decoder α}
    (hf : ∀ {h : Header} {body tail : Octets} {c : Cursor}, h.Opens body tail c.rest →
      FailsOnlyWith DecodeError.Regular ((expect e >>= f).run c).1) : (expect e >>= f).Regular := by
  intro c
  rcases expect_cases e c with ⟨n, hn, herror⟩ | ⟨h, rest, -, -, herror⟩ | ⟨h, body, tail, ho, -⟩
  · rw [run_bind_error herror]
    exact hn
  · rw [run_bind_error herror]
    trivial
  · exact hf ho

/-- After a record, padding may be missing. -/
theorem fails_close {result : Except DecodeError α}
    (hresult : FailsOnlyWith DecodeError.Regular result) (h : Header) (e : Element)
    (framing : Framing) (tail : Octets) (c : Cursor) :
    FailsOnlyWith DecodeError.Regular (h.close e framing tail c result).1 := by
  cases framing with
  | paddingIncluded => exact hresult
  | paddingExcluded =>
    by_cases hgap : gap h.size ≤ tail.length
    · rw [close, if_pos hgap]
      exact hresult
    · rw [close, if_neg hgap]
      exact Nat.lt_of_not_le hgap

theorem regular_skipElement (e : Element) (framing : Framing) :
    (skipElement e framing).Regular := by
  refine regular_of_opens fun {h body tail c} ho => ?_
  show FailsOnlyWith _ ((skipElement e framing).run c).1
  rw [run_skipElement ho]
  exact fails_close (by trivial) h e framing tail c

end Header

/-- The lengths that fit leave octets enough for the body, which is regular but for those. -/
def Layout.Regular (layout : Layout α) : Prop :=
  ∀ h : Header, layout.fits h.size = true → (layout.body h).RegularFrom (h.size - headerLength)

namespace Layout

theorem regular_fixed {size n : Nat} {d : Decoder α} (hd : d.RegularFrom n)
    (hsize : headerLength + n ≤ size) : (fixed size d).Regular := by
  intro h hfits
  have hfull : h.size = size := eq_of_beq hfits
  exact hd.weaken (by omega)

theorem regular_atLeast {least n : Nat} {f : Header → Decoder α} (hf : ∀ h, (f h).RegularFrom n)
    (hleast : headerLength + n ≤ least) : (atLeast least f).Regular := by
  intro h hfits
  have hcovered : least ≤ h.size := of_decide_eq_true hfits
  exact (hf h).weaken (by omega)

end Layout

namespace RecordFormat

variable {F : RecordFormat α}

/-- The kind was looked up in the header, so there is no other; nor is the body short of octets. -/
theorem fails_outcome (hF : ∀ code layout, F.layout? code = some layout → layout.Regular)
    {h : Header} {body tail : Octets} {c : Cursor} (ho : h.Opens body tail c.rest) :
    FailsOnlyWith DecodeError.Regular (F.outcome h body tail c).1 := by
  cases hlayout : F.layout? h.code with
  | none =>
    rw [outcome_of_unknown hlayout]
    exact Header.fails_close (by trivial) h _ _ tail c
  | some layout =>
    by_cases hfits : layout.fits h.size = false
    · rw [outcome_of_unfit hlayout hfits]
      trivial
    · have hroom : h.size - headerLength ≤ (Cursor.mk headerLength body).remaining := by
        rw [ho.size_eq, Nat.add_sub_cancel_left]
        exact Nat.le_refl _
      have hbody := hF h.code layout hlayout h (Bool.eq_true_of_not_eq_false hfits) _ hroom
      rw [outcome_of_fits hlayout hfits]
      rcases hrun : ((layout.body h).run ⟨headerLength, body⟩).1 with e | a
      · rw [hrun] at hbody
        exact hbody
      · exact Header.fails_close (by trivial) h _ _ tail c

theorem regular_decode (hF : ∀ code layout, F.layout? code = some layout → layout.Regular) :
    F.decode.Regular := by
  refine Header.regular_of_opens fun {h body tail c} ho => ?_
  show FailsOnlyWith _ (F.decode.run c).1
  rw [run_decode ho]
  exact fails_outcome hF ho

end RecordFormat

namespace Decoder

/-- The failure is regular, or else an element of another kind stands where one of the kind `code`
    was asked for. -/
def FailsForKind (e : Element) (code : Nat) (error : DecodeError) : Prop :=
  error.Regular ∨ ∃ found, found ≠ code ∧ error = .kindMismatch e code found

theorem fails_elementPadded {e : Element} {code : Nat} {layout : Layout α}
    (hlayout : layout.Regular) (c : Cursor) :
    FailsOnlyWith (FailsForKind e code) ((elementPadded e code layout).run c).1 := by
  rcases elementPadded_cases e code layout c with
    ⟨needed, hneeded, hrun⟩ | ⟨h, hrun⟩ | ⟨h, body, tail, ho, ⟨hcode, hrun⟩ | ⟨-, hrun⟩⟩
  · rw [hrun]
    exact .inl hneeded
  · rw [hrun]
    exact .inl trivial
  · rw [hrun]
    exact .inr ⟨h.code, hcode, rfl⟩
  · rw [hrun]
    refine (RecordFormat.fails_outcome ?_ ho).weaken fun _ => .inl
    intro code layout' hsome
    exact Option.some.inj hsome ▸ hlayout

/-! ## Structures that declare their own length -/

/-- The length is looked up among octets that were counted, and the body gets as many as it says. -/
theorem regular_measured {e : Element} {least offset : Nat} (hoffset : offset + 2 ≤ least)
    {d : Decoder α} (hd : d.RegularFrom least) : (measured e least offset d).Regular := by
  have hlength := (hasWidth_skip offset).bind fun _ => hasWidth_word 2
  refine regular_need_bind (hlength.regular_ahead_bind hoffset fun length => ?_)
  refine regularFrom_ite (fun _ => (regular_fail_bind (by trivial)).regularFrom _) fun hleast => ?_
  exact (regular_need_bind (hd.within (Nat.le_of_not_lt hleast))).regularFrom _

end Decoder

/-! ## Whole records -/

/-- Reading one record fails only for reasons that satisfy `P`. Where the record has to take up all
    the octets, some may also be left. -/
structure RecordFailsOnlyWith (α : Type) [Record α] (limits : Limits)
    (P : DecodeError → Prop) : Prop where
  decode : ∀ c, FailsOnlyWith P ((Record.decode limits : Decoder α).run c).1
  ofOctets : ∀ bs, FailsOnlyWith
    (fun e => P e ∨ ∃ left, 0 < left ∧ e = .trailingOctets (Record.element α) left)
    (Record.ofOctetsWithin limits bs : Except DecodeError α)

theorem RecordFailsOnlyWith.of_decode [Record α] {limits : Limits} {P : DecodeError → Prop}
    (hd : ∀ c, FailsOnlyWith P ((Record.decode limits : Decoder α).run c).1) :
    RecordFailsOnlyWith α limits P where
  decode := hd
  ofOctets bs := by
    have hresult := hd (.start bs)
    unfold Record.ofOctetsWithin
    rcases hrun : (Record.decode limits : Decoder α).run (.start bs) with ⟨e | a, c⟩
    · rw [hrun] at hresult
      exact .inl hresult
    · by_cases hend : c.isEmpty = true
      · simp only [hend, if_true]
        trivial
      · simp only [hend]
        exact .inr ⟨c.remaining, remaining_pos_of_rest_ne_nil (mt (isEmpty_iff c).2 hend), rfl⟩

/-- Reading a collection fails only regularly. Where it has to take up all the octets, none is ever
    left. -/
structure CollectionFailsRegularly (α : Type) [Record α] (limits : Limits) : Prop where
  decode : (Record.decode limits : Decoder α).Regular
  ofOctets : ∀ bs, FailsOnlyWith DecodeError.Regular
    (Record.ofOctetsWithin limits bs : Except DecodeError α)

theorem CollectionFailsRegularly.of_decode [Record α] {limits : Limits}
    (hd : (Record.decode limits : Decoder α).Regular)
    (hend : ∀ {c c' : Cursor} {a : α}, (Record.decode limits).run c = (.ok a, c') → c'.rest = []) :
    CollectionFailsRegularly α limits where
  decode := hd
  ofOctets bs := by
    have hresult := hd (.start bs)
    unfold Record.ofOctetsWithin
    rcases hrun : (Record.decode limits : Decoder α).run (.start bs) with ⟨e | a, c⟩
    · rw [hrun] at hresult
      exact hresult
    · simp only [(isEmpty_iff c).2 (hend hrun), if_true]
      trivial

/-- Reading a sequence fails only regularly, and so it does where unknown kinds are stepped over. -/
structure SequenceFailsRegularly (α : Type) [Entry α] (limits : Limits) : Prop
    extends CollectionFailsRegularly (List α) limits where
  decodeKnown : (Sequence.decodeKnown limits : Decoder (List α × List Nat)).Regular

theorem Sequence.failsRegularly [Entry α] {limits : Limits}
    (hd : (Record.decode limits : Decoder α).RegularFrom 1)
    (hc : (Record.decode limits : Decoder α).Consumes) : SequenceFailsRegularly α limits where
  toCollectionFailsRegularly := by
    refine .of_decode (regular_many (by trivial) hd _) fun hrun => ?_
    obtain ⟨-, hend, -⟩ := (run_many_ok_iff hc).1 hrun
    exact hend
  decodeKnown := regular_manyKnown (by trivial) hd _

theorem KeyedSet.regular_decodeEntry [Keyed α] {limits : Limits} {n : Nat}
    (hd : (Record.decode limits : Decoder α).RegularFrom n) (s : KeyedSet α) :
    (decodeEntry limits s).RegularFrom n := by
  refine hd.bind fun a => ?_
  split
  · exact regular_pure _
  · exact regular_fail (by trivial)

theorem KeyedSet.failsRegularly [Keyed α] {limits : Limits}
    (hd : (Record.decode limits : Decoder α).RegularFrom 1)
    (hc : (Record.decode limits : Decoder α).Consumes) :
    CollectionFailsRegularly (KeyedSet α) limits := by
  refine .of_decode (regular_untilEmpty (by trivial) (regular_decodeEntry hd) _ _) fun hrun => ?_
  obtain ⟨as, -, hend, -⟩ := (run_decode_ok_iff hc).1 hrun
  exact hend

/-! ## Scans -/

theorem RawRecord.regular_decode (e : Element) (framing : Framing) :
    (decode e framing).Regular := by
  refine Header.regular_of_opens fun {h body tail c} ho => ?_
  show FailsOnlyWith _ ((decode e framing).run c).1
  rw [run_decode ho]
  exact Header.fails_close (by trivial) h e framing tail c

theorem RawField.regular_decode : decode.Regular := by
  intro c
  rcases OxmHeader.expect_cases c with ⟨needed, hneeded, hexpect⟩ | ⟨h, payload, tail, ho, hexpect⟩
  · rw [decode, run_bind_error hexpect]
    exact hneeded
  · have hpayload := ((hasWidth_octets h.payloadLength).map (g := RawField.mk h)).regularFrom
    have hroom : OxmHeader.width + h.payloadLength ≤ c.remaining := ho.length_le
    rw [decode, run_bind_ok hexpect]
    exact (hasWidth_skip OxmHeader.width).regular_bind (fun _ => hpayload) c hroom

namespace Scan

variable {limits : Limits}

theorem fails_buffer {d : Decoder α} (hd : d.Regular) (bs : Octets) :
    FailsOnlyWith DecodeError.Regular (buffer limits d bs) := by
  unfold buffer
  split
  · trivial
  · exact regular_many (by trivial) (hd.regularFrom 1) _ (.start bs)

theorem fails_records (e : Element) (framing : Framing) (bs : Octets) :
    FailsOnlyWith DecodeError.Regular (records e framing limits bs) :=
  fails_buffer (RawRecord.regular_decode e framing) bs

theorem fails_oxmFields (bs : Octets) :
    FailsOnlyWith DecodeError.Regular (oxmFields limits bs) :=
  fails_buffer RawField.regular_decode bs

end Scan

end OpenFlow
