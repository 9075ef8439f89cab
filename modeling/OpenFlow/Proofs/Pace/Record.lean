import OpenFlow.Proofs.Recoding.Format

set_option autoImplicit false

/-! # Where decoders leave the cursor

Whoever reads on after a failure has to know where the cursor is. `Pace` tells the four ways in
which the decoder of a record may end: it has read the record, it has stepped over one of an unknown
kind, it has passed the length that the record declares, or it has not moved. The length is told by
the octets alone (`LengthMark.declared?`), and the cursor never moves past what is there. Records
behind a header keep to that in all their formats (`RecordFormat.pace`), and so do structures that
declare their own length (`Decoder.pace_measured`). -/

namespace OpenFlow

open Decoder

variable {α β : Type}

/-! ## Lengths that octets declare -/

/-- Where a record tells how long it is: in `width` octets after the first `offset`, as a number that
    leaves out `uncounted` octets. -/
structure LengthMark where
  offset : Nat
  width : Nat
  uncounted : Nat

/-- The length that the octets declare, if they go as far as that. -/
def LengthMark.declared? (mark : LengthMark) (bs : Octets) : Option Nat :=
  if mark.offset + mark.width ≤ bs.length then
    some (mark.uncounted + Octets.toNat ((bs.drop mark.offset).take mark.width))
  else none

/-- The length of a record comes after its kind. -/
def Header.lengthMark : LengthMark := ⟨2, 2, 0⟩

namespace LengthMark

/-- A number that stands behind as many octets as the mark says. -/
theorem declared?_of_eq {mark : LengthMark} {bs before number after : Octets}
    (hbs : bs = before ++ (number ++ after)) (hoffset : before.length = mark.offset)
    (hwidth : number.length = mark.width) :
    mark.declared? bs = some (mark.uncounted + Octets.toNat number) := by
  have hle : mark.offset + mark.width ≤ bs.length := by
    rw [hbs, List.length_append, List.length_append]
    omega
  rw [declared?, if_pos hle, hbs, List.drop_left' hoffset, List.take_left' hwidth]

end LengthMark

theorem Header.Opens.declared? {h : Header} {body tail bs : Octets} (ho : h.Opens body tail bs) :
    lengthMark.declared? bs = some h.size := by
  have hbs : bs = bigEndian 2 h.code ++ (bigEndian 2 h.size ++ (body ++ tail)) := by
    rw [ho.octets_eq, octets, List.append_assoc]
  rw [LengthMark.declared?_of_eq hbs (length_bigEndian 2 _) (length_bigEndian 2 _),
    toNat_bigEndian_of_lt 2 h.size h.length.toNat_lt]
  exact congrArg some (Nat.zero_add _)

/-! ## How a run may end -/

/-- How reading a record at the cursor `c` may end. The octets at the mark declare how long the
    record is, and the framing tells what it occupies. If `stepsOver`, then failures for unknown
    kinds are told from others. -/
inductive Pace (mark : LengthMark) (framing : Framing) (stepsOver : Bool) (c : Cursor) :
    Except DecodeError α × Cursor → Prop where
  | read {n : Nat} {a : α} (hdeclared : mark.declared? c.rest = some n)
      (hroom : framing.stride n ≤ c.remaining) :
      Pace mark framing stepsOver c (.ok a, c.advance (framing.stride n))
  | steppedOver {n : Nat} {e : DecodeError} (hsteps : stepsOver = true)
      (hunknown : e.unknownCode? ≠ none) (hdeclared : mark.declared? c.rest = some n)
      (hroom : framing.stride n ≤ c.remaining) :
      Pace mark framing stepsOver c (.error e, c.advance (framing.stride n))
  | passed {n : Nat} {e : DecodeError} (hknown : stepsOver = true → e.unknownCode? = none)
      (hdeclared : mark.declared? c.rest = some n) (hroom : n ≤ c.remaining) :
      Pace mark framing stepsOver c (.error e, c.advance n)
  | stayed {e : DecodeError} (hknown : e.unknownCode? = none) :
      Pace mark framing stepsOver c (.error e, c)

theorem Pace.map {mark : LengthMark} {framing : Framing} {stepsOver : Bool} {c : Cursor}
    {d : Decoder α} (h : Pace mark framing stepsOver c (d.run c)) (f : α → β) :
    Pace mark framing stepsOver c ((d >>= fun a => pure (f a)).run c) := by
  generalize hrun : d.run c = answer at h
  cases h with
  | read hdeclared hroom =>
    rw [run_bind_ok hrun]
    exact .read hdeclared hroom
  | steppedOver hsteps hunknown hdeclared hroom =>
    rw [run_bind_error hrun]
    exact .steppedOver hsteps hunknown hdeclared hroom
  | passed hknown hdeclared hroom =>
    rw [run_bind_error hrun]
    exact .passed hknown hdeclared hroom
  | stayed hknown =>
    rw [run_bind_error hrun]
    exact .stayed hknown

/-! ## Records behind a header -/

section Headed

variable {h : Header} {body tail : Octets} {c : Cursor} {framing : Framing} {stepsOver : Bool}

/-- The padding that a length does not cover is there with the record. -/
theorem Header.Opens.stride_le (ho : h.Opens body tail c.rest) (hgap : gap h.size ≤ tail.length) :
    padded h.size ≤ c.remaining := by
  have hlength := congrArg List.length ho.octets_eq
  rw [List.length_append, length_octets, List.length_append] at hlength
  rw [padded, ho.size_eq, Cursor.remaining, hlength]
  rw [ho.size_eq] at hgap
  omega

theorem Header.Opens.pace_after (ho : h.Opens body tail c.rest) {e : DecodeError}
    (hknown : stepsOver = true → e.unknownCode? = none) :
    Pace lengthMark framing stepsOver c
      ((.error e, h.after tail c) : Except DecodeError α × Cursor) := by
  rw [← ho.advance_eq]
  exact .passed hknown ho.declared? ho.size_le

/-- A record that is closed was read, or is of an unknown kind; its padding may be missing. -/
theorem Header.Opens.pace_close (ho : h.Opens body tail c.rest) {element : Element}
    {result : Except DecodeError α}
    (hresult : ∀ e, result = .error e → stepsOver = true ∧ e.unknownCode? ≠ none) :
    Pace lengthMark framing stepsOver c (h.close element framing tail c result) := by
  have hend (hroom : framing.stride h.size ≤ c.remaining) :
      Pace lengthMark framing stepsOver c (result, c.advance (framing.stride h.size)) := by
    cases result with
    | ok a => exact .read ho.declared? hroom
    | error e => exact .steppedOver (hresult e rfl).1 (hresult e rfl).2 ho.declared? hroom
  cases framing with
  | paddingIncluded =>
    rw [close, ← ho.advance_eq]
    exact hend ho.size_le
  | paddingExcluded =>
    by_cases hgap : gap h.size ≤ tail.length
    · have hplace :
          c.advance (padded h.size) = ⟨c.pos + padded h.size, tail.drop (gap h.size)⟩ := by
        rw [padded, ← Cursor.advance_advance, ho.advance_eq, ← Nat.add_assoc]
        rfl
      rw [close, if_pos hgap, ← hplace]
      exact hend (ho.stride_le hgap)
    · rw [close, if_neg hgap]
      exact ho.pace_after fun _ => rfl

/-- A record whose kind has a layout. Where padding comes after the body, there must be nothing
    unknown in it. -/
theorem RecordFormat.pace_outcome {F : RecordFormat α} {layout : Layout α}
    (ho : h.Opens body tail c.rest) (hlayout : F.layout? h.code = some layout)
    (hbody : stepsOver = true → F.framing = .paddingExcluded →
      (layout.body h).Recognizes fun _ => True) :
    Pace Header.lengthMark F.framing stepsOver c (F.outcome h body tail c) := by
  by_cases hfits : layout.fits h.size = false
  · rw [outcome_of_unfit hlayout hfits]
    exact .stayed rfl
  · rw [outcome_of_fits hlayout hfits]
    rcases hrun : (layout.body h).run ⟨headerLength, body⟩ with ⟨e | a, c'⟩
    · by_cases hknown : stepsOver = true → e.unknownCode? = none
      · exact ho.pace_after hknown
      · -- something unknown was found, so the length of the record covers its padding
        obtain ⟨hsteps, hunknown⟩ := Classical.not_imp.1 hknown
        cases hframing : F.framing with
        | paddingIncluded =>
          show Pace _ _ _ _ ((.error e, h.after tail c) : Except DecodeError α × Cursor)
          rw [← ho.advance_eq]
          exact .steppedOver hsteps hunknown ho.declared? ho.size_le
        | paddingExcluded => exact absurd ((hbody hsteps hframing).failure hrun) hunknown
    · exact ho.pace_close fun e he => nomatch he

/-- Records of a format, if padding comes after none that holds something unknown. -/
theorem RecordFormat.pace {F : RecordFormat α}
    (hbody : F.framing = .paddingExcluded → ∀ h layout, F.layout? h.code = some layout →
      (layout.body h).Recognizes fun _ => True) (c : Cursor) :
    Pace Header.lengthMark F.framing true c (F.decode.run c) := by
  rcases Header.expect_cases F.element c with
    ⟨n, -, herror⟩ | ⟨h, rest, -, -, herror⟩ | ⟨h, body, tail, ho, -⟩
  · rw [run_decode_of_error herror]
    exact .stayed rfl
  · rw [run_decode_of_error herror]
    exact .stayed rfl
  · rw [run_decode ho]
    cases hlayout : F.layout? h.code with
    | none =>
      rw [outcome_of_unknown hlayout]
      refine ho.pace_close fun e he => ⟨rfl, ?_⟩
      rw [← Except.error.inj he]
      exact Option.some_ne_none _
    | some layout => exact pace_outcome ho hlayout fun _ hframing => hbody hframing h layout hlayout

/-- An element of one kind with padding after it. What is unknown in it counts as any failure. -/
theorem Decoder.pace_elementPadded (e : Element) (code : Nat) (layout : Layout α) (c : Cursor) :
    Pace Header.lengthMark .paddingExcluded false c ((elementPadded e code layout).run c) := by
  rcases elementPadded_cases e code layout c with
    ⟨needed, -, hrun⟩ | ⟨h, hrun⟩ | ⟨h, body, tail, ho, ⟨-, hrun⟩ | ⟨-, hrun⟩⟩
  · rw [hrun]
    exact .stayed rfl
  · rw [hrun]
    exact .stayed rfl
  · rw [hrun]
    exact .stayed rfl
  · rw [hrun]
    exact RecordFormat.pace_outcome ho (F := ⟨e, .paddingExcluded, fun _ => some layout⟩) rfl
      fun hsteps => nomatch hsteps

end Headed

/-! ## Structures that declare their own length -/

/-- A structure without a kind. What is unknown in it counts as any failure. -/
theorem Decoder.pace_measured {e : Element} {least offset : Nat} (hoffset : offset + 2 ≤ least)
    (d : Decoder α) (c : Cursor) :
    Pace ⟨offset, 2, 0⟩ .paddingIncluded false c ((measured e least offset d).run c) := by
  rcases run_measured_cases (α := α) e hoffset c with
    ⟨error, hknown, herror⟩ | ⟨chunk, tail, hrest, hleast, hlength, hrun⟩
  · rw [herror]
    exact .stayed hknown
  · have hroom : chunk.length ≤ c.remaining := by
      rw [Cursor.remaining, hrest, List.length_append]
      exact Nat.le_add_right _ _
    have hdeclared : LengthMark.declared? ⟨offset, 2, 0⟩ c.rest = some chunk.length := by
      have hmark : offset + 2 ≤ c.rest.length :=
        Nat.le_trans hoffset (Nat.le_trans hleast hroom)
      rw [← hlength]
      exact (if_pos hmark).trans (congrArg some (Nat.zero_add _))
    rw [hrun]
    cases (d.run (.start chunk)).1 with
    | ok a => exact .read hdeclared hroom
    | error error => exact .passed (fun h => absurd h Bool.false_ne_true) hdeclared hroom

end OpenFlow
