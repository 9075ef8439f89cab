import OpenFlow.Proofs.Pace.Record
import OpenFlow.Proofs.Recoding.Instruction
import OpenFlow.Proofs.Recoding.Match
import OpenFlow.Proofs.Recoding.Property
import OpenFlow.Proofs.Skipping.Property

set_option autoImplicit false

/-! # The cursor after a record of each family

After a record that was read the cursor stands at the end of the record, and so it does after one of
an unknown kind, or one with something unknown in it, in the families that step over such records.
After any other failure it stands where it was, or behind the length that the record declares
(`records_keepPace`). -/

namespace OpenFlow

open Decoder

variable {α : Type}

/-! ## How much is taken -/

/-- Reading a value takes as many octets as the value is long. -/
def Decoder.Takes (d : Decoder α) (length : α → Nat) : Prop :=
  ∀ (c c' : Cursor) (a : α), d.run c = (.ok a, c') → c.remaining = length a + c'.remaining

theorem Decoder.Follows.takes {d : Decoder α} {room : Nat → Prop} {S : α → Template → Prop}
    {length : α → Nat} (hd : d.Follows room S) (hlength : ∀ a t, S a t → t.length = length a) :
    d.Takes length := by
  intro c c' a hrun
  obtain ⟨t, bs, hS, hbs, hrest, -⟩ := hd _ _ _ hrun
  rw [Cursor.remaining, hrest, List.length_append, ← hbs.length_eq, hlength a t hS]
  rfl

/-- A structure that declares its own length is as long as what is read inside it. -/
theorem Decoder.takes_measured {e : Element} {least offset : Nat} (hoffset : offset + 2 ≤ least)
    {d : Decoder α} {length : α → Nat} (hd : d.Follows atEnd fun a t => t.length = length a) :
    (measured e least offset d).Takes length := by
  intro c c' a hrun
  rcases run_measured_cases (α := α) e hoffset c with
    ⟨error, -, herror⟩ | ⟨chunk, tail, hrest, -, -, hmeasured⟩
  · rw [herror] at hrun
    cases (Prod.mk.inj hrun).1
  · rw [hmeasured] at hrun
    obtain ⟨hresult, rfl⟩ := Prod.mk.inj hrun
    have hinside : d.run (.start chunk) = (.ok a, (d.run (.start chunk)).2) := by rw [← hresult]
    obtain ⟨t, bs, hlength, hbs, hchunk, hend, -⟩ := hd _ _ _ hinside
    obtain rfl : chunk = bs := by
      rw [List.length_eq_zero_iff.1 hend, List.append_nil] at hchunk
      exact hchunk
    rw [Cursor.remaining_advance, Cursor.remaining, hrest, List.length_append, ← hlength,
      hbs.length_eq]
    omega

/-! ## Keeping pace -/

/-- Where the decoder of a record leaves the cursor. The octets at the mark declare a length `n`, of
    which the framing makes the number of octets that the record occupies. If `stepsOver`, the
    record is stepped over whenever it fails for an unknown kind. -/
structure KeepsPace (α : Type) [Record α] (mark : LengthMark) (framing : Framing)
    (stepsOver : Bool) (limits : Limits) : Prop where
  ok : ∀ (c c' : Cursor) (a : α), (Record.decode limits).run c = (.ok a, c') →
    ∃ n, mark.declared? c.rest = some n ∧ Record.length a = framing.stride n
      ∧ framing.stride n ≤ c.remaining ∧ c' = c.advance (framing.stride n)
  unknown : stepsOver = true → ∀ (c c' : Cursor) (e : DecodeError),
    (Record.decode limits : Decoder α).run c = (.error e, c') → e.unknownCode? ≠ none →
      ∃ n, mark.declared? c.rest = some n
        ∧ framing.stride n ≤ c.remaining ∧ c' = c.advance (framing.stride n)
  failed : ∀ (c c' : Cursor) (e : DecodeError),
    (Record.decode limits : Decoder α).run c = (.error e, c') →
      (stepsOver = true → e.unknownCode? = none) →
        c' = c ∨ ∃ n, mark.declared? c.rest = some n ∧ n ≤ c.remaining ∧ c' = c.advance n

theorem KeepsPace.of_pace [Record α] {mark : LengthMark} {framing : Framing} {stepsOver : Bool}
    {limits : Limits}
    (hpace : ∀ c, Pace mark framing stepsOver c ((Record.decode limits : Decoder α).run c))
    (htakes : (Record.decode limits : Decoder α).Takes Record.length) :
    KeepsPace α mark framing stepsOver limits where
  ok c c' a hrun := by
    have hlength := htakes c c' a hrun
    have h := hpace c
    rw [hrun] at h
    cases h with
    | read hdeclared hroom =>
      refine ⟨_, hdeclared, ?_, hroom, rfl⟩
      rw [Cursor.remaining_advance] at hlength
      omega
  unknown hsteps c c' e hrun hunknown := by
    have h := hpace c
    rw [hrun] at h
    cases h with
    | steppedOver _ _ hdeclared hroom => exact ⟨_, hdeclared, hroom, rfl⟩
    | passed hknown => exact absurd (hknown hsteps) hunknown
    | stayed hknown => exact absurd hknown hunknown
  failed c c' e hrun hknown := by
    have h := hpace c
    rw [hrun] at h
    cases h with
    | steppedOver hsteps hunknown => exact absurd (hknown hsteps) hunknown
    | passed _ hdeclared hroom => exact .inr ⟨_, hdeclared, hroom, rfl⟩
    | stayed => exact .inl rfl

/-- What is written in a template takes as many octets as it has places. -/
theorem takes_of_follows [Record α] {limits : Limits} {template : α → Template}
    {octets : α → Octets}
    (h : (Record.decode limits : Decoder α).Follows anywhere (Drawn template))
    (hfill : ∀ a, (template a).fill = octets a)
    (hlength : ∀ a, (octets a).length = Record.length a) :
    (Record.decode limits : Decoder α).Takes Record.length := by
  refine h.takes ?_
  rintro a _ ⟨rfl, -⟩
  rw [← hlength, ← hfill, Template.length_fill]

/-! ## Families with a format -/

theorem Action.keepsPace (limits : Limits) :
    KeepsPace Action Header.lengthMark .paddingIncluded true limits := by
  refine .of_pace (fun c => ?_) (takes_of_follows (follows limits) fill_template length_octets)
  show Pace _ _ _ _ (decode.run c)
  rw [decode_eq]
  exact format.pace nofun c

theorem Instruction.keepsPace (limits : Limits) :
    KeepsPace Instruction Header.lengthMark .paddingIncluded true limits := by
  refine .of_pace (fun c => ?_) (takes_of_follows (follows limits) fill_template length_octets)
  show Pace _ _ _ _ ((decode limits).run c)
  rw [decode_eq]
  exact (format limits).pace nofun c

theorem QueueProperty.keepsPace (limits : Limits) :
    KeepsPace QueueProperty Header.lengthMark .paddingIncluded true limits := by
  refine .of_pace (fun c => ?_) (takes_of_follows (follows limits) fill_template length_octets)
  show Pace _ _ _ _ (decode.run c)
  rw [decode_eq]
  exact format.pace nofun c

/-- No id is of an unknown kind, so nothing unknown stands before the padding of a property. -/
theorem TableProperty.keepsPace (limits : Limits) :
    KeepsPace TableProperty Header.lengthMark .paddingExcluded true limits := by
  refine .of_pace (fun c => ?_) (takes_of_follows (follows limits) fill_template length_octets)
  show Pace _ _ _ _ ((decode limits).run c)
  rw [decode_eq]
  refine (format limits).pace (fun _ h layout hlayout => ?_) c
  obtain ⟨k, -, rfl⟩ := Option.map_eq_some_iff.1 hlayout
  exact (recognizes_layout limits k h).weaken fun _ _ => trivial

/-! ## Match fields -/

namespace OxmHeader

/-- The length of a match field is the last octet of its header, which leaves out the header. -/
def lengthMark : LengthMark := ⟨3, 1, width⟩

theorem toNat_lastOctet (h : OxmHeader) : Octets.toNat (h.octets.drop 3) = h.payloadLength := by
  show Octets.toNat [UInt8.ofNat (h.raw.toNat / 1)] = h.raw.toNat % 256
  simp [Octets.toNat, Octets.toNatFrom]

theorem Opens.declared? {h : OxmHeader} {payload tail bs : Octets}
    (ho : h.Opens payload tail bs) : lengthMark.declared? bs = some (width + h.payloadLength) := by
  have hbs : bs = h.octets.take 3 ++ (h.octets.drop 3 ++ (payload ++ tail)) := by
    rw [← List.append_assoc (h.octets.take 3), List.take_append_drop, ← List.append_assoc]
    exact ho.octets_eq
  rw [LengthMark.declared?_of_eq hbs (by simp [lengthMark, width]) (by simp [lengthMark, width]),
    toNat_lastOctet]
  rfl

end OxmHeader

namespace Field

theorem keepsPace (limits : Limits) :
    KeepsPace Field OxmHeader.lengthMark .paddingIncluded true limits := by
  refine .of_pace (fun c => ?_) ?_
  · show Pace _ _ _ _ (decode.run c)
    rcases run_decode_cases c with
      ⟨needed, -, hrun⟩ | ⟨h, payload, tail, ho, ⟨-, hrun⟩ | ⟨-, hrun | ⟨f, hrun⟩⟩⟩
    · rw [hrun]
      exact .stayed rfl
    · rw [hrun]
      exact .steppedOver rfl (Option.some_ne_none _) ho.declared? ho.length_le
    · rw [hrun]
      exact .stayed rfl
    · rw [hrun]
      exact .read ho.declared? ho.length_le
  · exact follows_decode.takes fun f t ht => by rw [ht, Template.length_exact, length_octets]; rfl

end Field

/-! ## Buckets and queues -/

/-- The length of a bucket comes first. -/
def Bucket.lengthMark : LengthMark := ⟨0, 2, 0⟩

theorem Bucket.keepsPace (limits : Limits) :
    KeepsPace Bucket lengthMark .paddingIncluded false limits :=
  .of_pace (fun c => pace_measured (by decide) _ c)
    (takes_of_follows (follows limits) fill_template length_octets)

/-- The length of a queue comes after its number and that of its port. -/
def PacketQueue.lengthMark : LengthMark := ⟨8, 2, 0⟩

theorem PacketQueue.takes (limits : Limits) :
    (Record.decode limits : Decoder PacketQueue).Takes Record.length := by
  refine takes_measured (by decide) (follows_u32.bind ?_)
  rintro queueId _ rfl
  refine follows_u32.bind ?_
  rintro port _ rfl
  refine Follows.after_skip 8 ?_
  refine (Sequence.follows_decode (QueueProperty.follows limits) fun _ =>
    Framing.template_ne_nil _ _ _ _).map ?_
  rintro properties _ ⟨rfl, -⟩
  have hproperties : (properties.flatMap QueueProperty.template).length
      = Sequence.length properties := by
    rw [← Template.length_fill, Template.fill_flatMap QueueProperty.fill_template]
    exact Sequence.length_flatMap fun p _ => p.length_octets
  show _ = 16 + Sequence.length properties
  rw [← hproperties]
  simp only [List.length_append, Template.length_exact, Template.length_blanks, length_bigEndian]
  omega

theorem PacketQueue.keepsPace (limits : Limits) :
    KeepsPace PacketQueue lengthMark .paddingIncluded false limits :=
  .of_pace (fun c => pace_measured (by decide) _ c) (takes limits)

/-! ## Matches -/

theorem Match.takes (limits : Limits) :
    (Record.decode limits : Decoder Match).Takes Record.length := by
  intro c c' m hrun
  obtain ⟨fs, pad, hrest, hpad, -, -, hnodup, hfields⟩ := run_decode_ok hrun
  have hperm : m.fields.toList.Perm fs := hfields ▸ KeyedSet.toList_ofList_perm hnodup
  have hdeclared := declaredLength_of_perm hperm
  show _ = padded m.declaredLength + _
  rw [Cursor.remaining, hrest, List.length_append, length_frame, hpad, ← hdeclared]
  rfl

theorem Match.keepsPace (limits : Limits) :
    KeepsPace Match Header.lengthMark .paddingExcluded false limits :=
  .of_pace (fun c => (pace_elementPadded _ _ _ c).map Match.mk) (takes limits)

/-! ## Every family -/

/-- Where every decoder of records leaves the cursor. -/
theorem records_keepPace (limits : Limits) :
    KeepsPace Action Header.lengthMark .paddingIncluded true limits
      ∧ KeepsPace Instruction Header.lengthMark .paddingIncluded true limits
      ∧ KeepsPace QueueProperty Header.lengthMark .paddingIncluded true limits
      ∧ KeepsPace Bucket Bucket.lengthMark .paddingIncluded false limits
      ∧ KeepsPace PacketQueue PacketQueue.lengthMark .paddingIncluded false limits
      ∧ KeepsPace Field OxmHeader.lengthMark .paddingIncluded true limits
      ∧ KeepsPace TableProperty Header.lengthMark .paddingExcluded true limits
      ∧ KeepsPace Match Header.lengthMark .paddingExcluded false limits :=
  ⟨Action.keepsPace limits, Instruction.keepsPace limits, QueueProperty.keepsPace limits,
    Bucket.keepsPace limits, PacketQueue.keepsPace limits, Field.keepsPace limits,
    TableProperty.keepsPace limits, Match.keepsPace limits⟩

end OpenFlow
