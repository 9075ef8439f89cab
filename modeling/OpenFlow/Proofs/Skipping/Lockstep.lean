import OpenFlow.Proofs.RecordFormat
import OpenFlow.Proofs.Skipping.Family

set_option autoImplicit false

/-! # Decoders beside a scan

A decoder of records and a scan that decodes nothing go over a buffer in the same steps. A format
`Describes` a family if what it makes of a body is what the family tells of it; then every record
that is read, or stepped over because its kind is unknown, is one that the scan finds
(`Describes.run_known`), and the answer of the loop is explained by what the scan finds
(`Describes.explains_manyKnown`). -/

namespace OpenFlow

variable {α : Type}

namespace RecordFormat

/-- The format `F` reads the records that `G` knows, as entries whose kinds `code` tells. -/
structure Describes (F : RecordFormat α) (G : RecordFamily) (code : α → Nat) : Prop where
  element_eq : F.element = G.element
  framing_eq : F.framing = G.framing
  knows_eq : ∀ n, (F.layout? n).isSome = G.knows n
  /-- A body that is read holds nothing unknown. -/
  value : ∀ {h : Header} {body : Octets} {layout : Layout α} {a : α},
    F.layout? h.code = some layout →
      ((layout.body h).run ⟨headerLength, body⟩).1 = .ok a →
        code a = h.code ∧ G.unknownInside? ⟨h, body, G.framing.stride h.size⟩ = none
  /-- A body that fails for an unknown kind holds it, and no padding comes after it. -/
  failure : ∀ {h : Header} {body : Octets} {layout : Layout α} {e : DecodeError} {n : Nat},
    F.layout? h.code = some layout →
      ((layout.body h).run ⟨headerLength, body⟩).1 = .error e → e.unknownCode? = some n →
        G.framing = .paddingIncluded
          ∧ G.unknownInside? ⟨h, body, G.framing.stride h.size⟩ = some n

end RecordFormat

/-! ## Records side by side -/

namespace Header

/-- A record that was opened at `c` ends at `c'`, whatever it comes to. -/
def EndsAt (h : Header) (e : Element) (framing : Framing) (tail : Octets) (c c' : Cursor) : Prop :=
  ∀ {α : Type} (result : Except DecodeError α), h.close e framing tail c result = (result, c')

variable {h : Header} {e : Element} {framing : Framing} {tail : Octets} {c c' : Cursor}

theorem endsAt_after (h : Header) (e : Element) (tail : Octets) (c : Cursor) :
    h.EndsAt e .paddingIncluded tail c (h.after tail c) := fun _ => rfl

/-- A record ends somewhere in what comes after it, or its padding is missing. -/
theorem close_cases (h : Header) (e : Element) (framing : Framing) (tail : Octets) (c : Cursor) :
    (∃ c', c'.remaining ≤ tail.length ∧ h.EndsAt e framing tail c c')
    ∨ ∃ failure c', failure.unknownCode? = none
      ∧ ∀ {α : Type} (result : Except DecodeError α),
        h.close e framing tail c result = (.error failure, c') := by
  cases framing with
  | paddingIncluded => exact Or.inl ⟨h.after tail c, Nat.le_refl _, h.endsAt_after e tail c⟩
  | paddingExcluded =>
    by_cases hgap : gap h.size ≤ tail.length
    · refine Or.inl ⟨⟨c.pos + padded h.size, tail.drop (gap h.size)⟩, ?_, fun _ => if_pos hgap⟩
      rw [Cursor.remaining, List.length_drop]
      exact Nat.sub_le _ _
    · exact Or.inr ⟨.truncated e (gap h.size) tail.length, h.after tail c, rfl,
        fun _ => if_neg hgap⟩

theorem endsAt_of_close_ok {result : Except DecodeError α} {a : α}
    (hclose : h.close e framing tail c result = (.ok a, c')) :
    result = .ok a ∧ c'.remaining ≤ tail.length ∧ h.EndsAt e framing tail c c' := by
  rcases close_cases h e framing tail c with ⟨c₁, hle, hends⟩ | ⟨failure, c₁, -, hmissing⟩
  · rw [hends] at hclose
    obtain ⟨rfl, rfl⟩ := Prod.mk.inj hclose
    exact ⟨rfl, hle, hends⟩
  · rw [hmissing] at hclose
    simp at hclose

theorem endsAt_of_close_unknown {result : Except DecodeError α} {failure : DecodeError} {n : Nat}
    (hclose : h.close e framing tail c result = (.error failure, c'))
    (hcode : failure.unknownCode? = some n) :
    result = .error failure ∧ h.EndsAt e framing tail c c' := by
  rcases close_cases h e framing tail c with ⟨c₁, -, hends⟩ | ⟨other, c₁, hnone, hmissing⟩
  · rw [hends] at hclose
    obtain ⟨rfl, rfl⟩ := Prod.mk.inj hclose
    exact ⟨rfl, hends⟩
  · rw [hmissing] at hclose
    obtain ⟨hother, -⟩ := Prod.mk.inj hclose
    rw [Except.error.inj hother, hcode] at hnone
    simp at hnone

theorem Opens.length_lt {body bs : Octets} (ho : h.Opens body tail bs) :
    tail.length < bs.length := by
  rw [ho.octets_eq, List.length_append, length_octets, List.length_append, headerLength]
  omega

end Header

theorem RawRecord.consumes_decode (e : Element) (framing : Framing) :
    (decode e framing).Consumes := by
  intro c r c' hrun
  rcases Header.expect_cases e c with
    ⟨n, -, herror⟩ | ⟨h, rest, -, -, herror⟩ | ⟨h, body, tail, ho, -⟩
  · rw [decode, Decoder.run_bind_error herror] at hrun
    simp at hrun
  · rw [decode, Decoder.run_bind_error herror] at hrun
    simp at hrun
  · rw [run_decode ho] at hrun
    obtain ⟨-, hle, -⟩ := Header.endsAt_of_close_ok hrun
    exact Nat.lt_of_le_of_lt hle ho.length_lt

namespace RecordFormat

variable {F : RecordFormat α} {G : RecordFamily} {code : α → Nat} {c c' : Cursor} {a : α}
  {e : DecodeError} {n : Nat} {h : Header} {body tail : Octets}

/-- A record is read if its body is. -/
theorem outcome_ok_cases (hrun : F.outcome h body tail c = (.ok a, c')) :
    ∃ layout, F.layout? h.code = some layout
      ∧ ((layout.body h).run ⟨headerLength, body⟩).1 = .ok a
      ∧ h.EndsAt F.element F.framing tail c c' := by
  cases hlayout : F.layout? h.code with
  | none =>
    rw [outcome_of_unknown hlayout] at hrun
    obtain ⟨himpossible, -⟩ := Header.endsAt_of_close_ok hrun
    simp at himpossible
  | some layout =>
    by_cases hfits : layout.fits h.size = false
    · rw [outcome_of_unfit hlayout hfits] at hrun
      simp at hrun
    · rw [outcome_of_fits hlayout hfits] at hrun
      rcases hbody : ((layout.body h).run ⟨headerLength, body⟩).1 with e | a'
      · rw [hbody] at hrun
        simp at hrun
      · rw [hbody] at hrun
        obtain ⟨ha, -, hends⟩ := Header.endsAt_of_close_ok hrun
        rw [Except.ok.inj ha] at hbody
        exact ⟨layout, rfl, hbody, hends⟩

/-- A record is reported as unknown if it has no layout, or if its body is. -/
theorem outcome_unknown_cases (hrun : F.outcome h body tail c = (.error e, c'))
    (hcode : e.unknownCode? = some n) :
    (F.layout? h.code = none ∧ h.code = n ∧ h.EndsAt F.element F.framing tail c c')
    ∨ ∃ layout, F.layout? h.code = some layout
      ∧ ((layout.body h).run ⟨headerLength, body⟩).1 = .error e ∧ h.after tail c = c' := by
  cases hlayout : F.layout? h.code with
  | none =>
    rw [outcome_of_unknown hlayout] at hrun
    obtain ⟨he, hends⟩ := Header.endsAt_of_close_unknown hrun hcode
    rw [← Except.error.inj he] at hcode
    exact Or.inl ⟨rfl, Option.some.inj hcode, hends⟩
  | some layout =>
    by_cases hfits : layout.fits h.size = false
    · rw [outcome_of_unfit hlayout hfits] at hrun
      obtain ⟨he, -⟩ := Prod.mk.inj hrun
      rw [← Except.error.inj he] at hcode
      simp [DecodeError.unknownCode?] at hcode
    · rw [outcome_of_fits hlayout hfits] at hrun
      rcases hbody : ((layout.body h).run ⟨headerLength, body⟩).1 with e' | a
      · rw [hbody] at hrun
        obtain ⟨he, hafter⟩ := Prod.mk.inj hrun
        rw [Except.error.inj he] at hbody
        exact Or.inr ⟨layout, rfl, hbody, hafter⟩
      · rw [hbody] at hrun
        obtain ⟨himpossible, -⟩ := Header.endsAt_of_close_unknown hrun hcode
        simp at himpossible

/-- Where a record is read or reported as unknown, one is there in full. -/
theorem opens_of_run_decode {result : Except DecodeError α}
    (hrun : F.decode.run c = (result, c'))
    (hresult : ∀ e, result = .error e → e.unknownCode? ≠ none) :
    ∃ (h : Header) (body tail : Octets), h.Opens body tail c.rest
      ∧ F.outcome h body tail c = (result, c') := by
  rcases Header.expect_cases F.element c with
    ⟨n, -, herror⟩ | ⟨h, rest, -, -, herror⟩ | ⟨h, body, tail, ho, -⟩
  · rw [run_decode_of_error herror] at hrun
    obtain ⟨rfl, -⟩ := Prod.mk.inj hrun
    exact absurd rfl (hresult _ rfl)
  · rw [run_decode_of_error herror] at hrun
    obtain ⟨rfl, -⟩ := Prod.mk.inj hrun
    exact absurd rfl (hresult _ rfl)
  · exact ⟨h, body, tail, ho, (run_decode ho).symm.trans hrun⟩

theorem Describes.knows_of_some (hF : F.Describes G code) {layout : Layout α}
    (hlayout : F.layout? n = some layout) : G.knows n = true := by
  rw [← hF.knows_eq, hlayout]
  rfl

theorem Describes.knows_of_none (hF : F.Describes G code) (hlayout : F.layout? n = none) :
    G.knows n = false := by
  rw [← hF.knows_eq, hlayout]
  rfl

/-- An entry comes from one record, of its kind and with nothing unknown inside. -/
theorem Describes.run_decode_ok (hF : F.Describes G code)
    (hrun : F.decode.run c = (.ok a, c')) :
    ∃ r, (RawRecord.decode G.element G.framing).run c = (.ok r, c')
      ∧ G.unknown? r = none ∧ code a = r.header.code := by
  obtain ⟨h, body, tail, ho, houtcome⟩ := opens_of_run_decode hrun (by simp)
  obtain ⟨layout, hlayout, hbody, hends⟩ := outcome_ok_cases houtcome
  obtain ⟨hcode, hinside⟩ := hF.value hlayout hbody
  rw [hF.element_eq, hF.framing_eq] at hends
  refine ⟨_, (RawRecord.run_decode ho).trans (hends _), ?_, hcode⟩
  rw [RecordFamily.unknown?_of_known (hF.knows_of_some hlayout), hinside]

/-- What is stepped over is one record that is unknown or holds what is. -/
theorem Describes.run_decode_unknown (hF : F.Describes G code)
    (hrun : F.decode.run c = (.error e, c')) (hcode : e.unknownCode? = some n) :
    ∃ r, (RawRecord.decode G.element G.framing).run c = (.ok r, c')
      ∧ G.unknown? r = some n := by
  obtain ⟨h, body, tail, ho, houtcome⟩ := opens_of_run_decode hrun (by
    rintro _ ⟨⟩ hnone
    simp [hnone] at hcode)
  rcases outcome_unknown_cases houtcome hcode with
    ⟨hlayout, rfl, hends⟩ | ⟨layout, hlayout, hbody, rfl⟩
  · rw [hF.element_eq, hF.framing_eq] at hends
    exact ⟨_, (RawRecord.run_decode ho).trans (hends _),
      RecordFamily.unknown?_of_unknown (hF.knows_of_none hlayout)⟩
  · obtain ⟨hframing, hinside⟩ := hF.failure hlayout hbody hcode
    refine ⟨_, (RawRecord.run_decode ho).trans ?_,
      (RecordFamily.unknown?_of_known (hF.knows_of_some hlayout)).trans hinside⟩
    rw [hframing]
    exact h.endsAt_after G.element tail c _

/-! ## Sequences side by side -/

/-- Each step of the loop goes over one record. -/
theorem Describes.run_known (hF : F.Describes G code) {x : Except Nat α}
    (hrun : (Decoder.known F.decode).run c = (.ok x, c')) :
    ∃ r, (RawRecord.decode G.element G.framing).run c = (.ok r, c') ∧ G.Sorts code r x := by
  rcases Decoder.run_known_cases hrun with ⟨a, rfl, hok⟩ | ⟨e, n, rfl, herror, hcode⟩
  · obtain ⟨r, hraw, hnone, heq⟩ := hF.run_decode_ok hok
    exact ⟨r, hraw, .entry hnone heq⟩
  · obtain ⟨r, hraw, hunknown⟩ := hF.run_decode_unknown herror hcode
    exact ⟨r, hraw, .unknown hunknown⟩

theorem Describes.consumes_known (hF : F.Describes G code) :
    (Decoder.known F.decode).Consumes := by
  intro c x c' hrun
  obtain ⟨r, hraw, -⟩ := hF.run_known hrun
  exact RawRecord.consumes_decode _ _ c r c' hraw

theorem Describes.consumes_decode (hF : F.Describes G code) : F.decode.Consumes := by
  intro c a c' hrun
  exact hF.consumes_known c _ c' (Decoder.run_known_of_ok hrun)

/-- Entries that are read one after the other come from records with nothing unknown. -/
theorem Describes.pass_decode (hF : F.Describes G code) {as : List α}
    (h : Decoder.Pass F.decode c as c') :
    ∃ rs, Decoder.Pass (RawRecord.decode G.element G.framing) c rs c'
      ∧ ∀ r ∈ rs, G.unknown? r = none := by
  obtain ⟨rs, hraw, hall⟩ := h.beside fun hrun => hF.run_decode_ok hrun
  exact ⟨rs, hraw, ((List.forall₂_and_left rs as).1 hall).1⟩

/-- Records that are all read hold nothing unknown, ... -/
theorem Describes.firstUnknown?_of_ok (hF : F.Describes G code) {bound : Nat}
    {overfull : DecodeError} {as : List α}
    (hrun : (Decoder.many bound overfull F.decode).run c = (.ok as, c')) :
    G.firstUnknown? c = none := by
  obtain ⟨as', c₁, hpass, -, ⟨hend, -⟩ | ⟨-, -, hfull⟩ | ⟨-, -, e, c₂, -, hfail⟩⟩ :=
    Decoder.run_many_cases hF.consumes_decode bound overfull c
  · obtain ⟨rs, hraw, hnone⟩ := hF.pass_decode hpass
    obtain ⟨e, c₂, hlast⟩ := (RawRecord.consumes_decode G.element G.framing).run_of_end hend
    rw [RecordFamily.firstUnknown?, hraw.leading_eq hlast]
    exact List.findSome?_eq_none_iff.2 hnone
  · rw [hrun] at hfull
    simp at hfull
  · rw [hrun] at hfail
    simp at hfail

/-- ... and if reading them fails for an unknown kind, it is the first. -/
theorem Describes.firstUnknown?_of_unknown (hF : F.Describes G code) {bound : Nat}
    {overfull : DecodeError} (hoverfull : overfull.unknownCode? = none)
    (hrun : (Decoder.many bound overfull F.decode).run c = (.error e, c'))
    (hcode : e.unknownCode? = some n) : G.firstUnknown? c = some n := by
  obtain ⟨as, c₁, hpass, -, ⟨-, hok⟩ | ⟨-, -, hfull⟩ | ⟨-, -, e', c₂, hlast, hfail⟩⟩ :=
    Decoder.run_many_cases hF.consumes_decode bound overfull c
  · rw [hrun] at hok
    simp at hok
  · rw [hrun] at hfull
    obtain ⟨he, -⟩ := Prod.mk.inj hfull
    rw [Except.error.inj he, hoverfull] at hcode
    simp at hcode
  · rw [hrun] at hfail
    obtain ⟨he, rfl⟩ := Prod.mk.inj hfail
    rw [← Except.error.inj he] at hlast
    -- the scan finds the records before the unknown one, that one, and perhaps more
    obtain ⟨rs, hraw, hnone⟩ := hF.pass_decode hpass
    obtain ⟨r, hr, hunknown⟩ := hF.run_decode_unknown hlast hcode
    have hlt := RawRecord.consumes_decode G.element G.framing _ _ _ hr
    obtain ⟨more, hleading⟩ := (hraw.concat hr hlt).leading_eq_append
    rw [RecordFamily.firstUnknown?, hleading, List.findSome?_append, List.findSome?_append,
      List.findSome?_eq_none_iff.2 hnone, List.findSome?_cons, hunknown]
    rfl

/-- A pass over all of a buffer that is not too large for any machine finds its records. -/
theorem records_of_pass {e : Element} {framing : Framing} {bs : Octets} {rs : List RawRecord}
    {c : Cursor} (hbs : bs.length ≤ Limits.unbounded)
    (h : Decoder.Pass (RawRecord.decode e framing) (.start bs) rs c) (hend : c.rest = []) :
    Scan.records e framing .unlimited bs = .ok rs := by
  have hcount : rs.length ≤ Limits.unbounded := Nat.le_trans h.length_le hbs
  unfold Scan.records Scan.buffer
  refine (if_neg (Nat.not_lt.2 hbs)).trans ?_
  exact congrArg Prod.fst (h.run_many hend hcount)

/-- What a loop over the records of a family answers is explained by the records. -/
theorem Describes.explains_manyKnown (hF : F.Describes G code) {bs : Octets} {bound : Nat}
    {overfull : DecodeError} {as : List α} {skipped : List Nat} {c : Cursor}
    (hbs : bs.length ≤ Limits.unbounded)
    (hrun : (Decoder.manyKnown bound overfull F.decode).run (.start bs)
      = (.ok (as, skipped), c)) :
    ∃ rs, G.records bs = .ok rs ∧ G.Explains rs (as.map code) skipped := by
  obtain ⟨xs, hpass, hend, rfl, rfl⟩ := Decoder.run_manyKnown_cases hF.consumes_known hrun
  obtain ⟨rs, hraw, hsorts⟩ := hpass.beside hF.run_known
  exact ⟨rs, records_of_pass hbs hraw hend, RecordFamily.explains_of_sorts hsorts⟩

end RecordFormat

end OpenFlow
