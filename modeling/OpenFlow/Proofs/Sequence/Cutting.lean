import OpenFlow.Proofs.Limits.Families
import OpenFlow.Proofs.Pace.Families
import OpenFlow.Proofs.Sequence.Joining

set_option autoImplicit false

/-! # Sequences that are cut short

Octets of a sequence may be missing at the end. If they are missing from some entry on, the entries
before it are read and nothing else; if an entry itself is cut, wherever that is, reading fails for
too few octets of an entry, and for nothing else (`lists_detect_cuts`). For the header of an entry
tells how long the entry is, the header that is left of a cut entry is either cut itself or as it
was, and nothing inside an entry is looked at before all of it was found to be there. Padding that a
length does not cover comes last, and is missed last. -/

namespace OpenFlow

open Decoder

variable {α : Type}

/-- What was read has too few octets of the element `e`. -/
def CutShort (e : Element) (answer : Except DecodeError α × Cursor) : Prop :=
  ∃ (needed available : Nat) (c : Cursor),
    available < needed ∧ answer = (.error (.truncated e needed available), c)

/-- Where octets from which `d` reads a value are cut, `d` finds that there are too few. -/
def Decoder.NoticesCuts (d : Decoder α) (e : Element) : Prop :=
  ∀ {bs : Octets} {a : α}, d.Reads bs a → ∀ (pos : Nat) {k : Nat}, k < bs.length →
    CutShort e (d.run ⟨pos, bs.take k⟩)

/-! ## Records behind a header -/

/-- Padding that is missing in part. -/
theorem Header.close_of_short {h : Header} {e : Element} {framing : Framing} {tail : Octets}
    {c : Cursor} (htail : tail.length < framing.uncovered h.size) (result : Except DecodeError α) :
    CutShort e (h.close e framing tail c result) := by
  cases framing with
  | paddingIncluded => exact absurd htail (Nat.not_lt_zero _)
  | paddingExcluded =>
    have hgap : tail.length < gap h.size := htail
    rw [close, if_neg (Nat.not_le.2 hgap)]
    exact ⟨_, _, _, hgap, rfl⟩

theorem RecordFormat.noticesCuts (F : RecordFormat α) : F.decode.NoticesCuts F.element := by
  intro bs a hreads pos k hk
  obtain ⟨h, body, tail, ho, houtcome⟩ := opens_of_run_decode ((hreads []).run_all pos) (by simp)
  obtain ⟨layout, hlayout, hfits, hbody, pad, hpad, rfl⟩ := exists_layout houtcome
  have hbs : bs = h.octets ++ (body ++ pad) := by simpa using ho.octets_eq
  have hcut : bs.take k ++ bs.drop k = h.octets ++ (body ++ pad) := by
    rw [List.take_append_drop, hbs]
  rcases Header.expect_cases F.element ⟨pos, bs.take k⟩ with
    ⟨n, hn, herror⟩ | ⟨h', rest, hrest, hsmall, -⟩ | ⟨h', body', tail', ho', -⟩
  · exact ⟨n, _, _, hn, run_decode_of_error herror⟩
  · -- the header is the one of the record, whose length covers it
    rw [show bs.take k = _ from hrest, List.append_assoc] at hcut
    obtain ⟨rfl, -⟩ := Header.octets_append_inj hcut
    rw [ho.size_eq] at hsmall
    omega
  · rw [show bs.take k = _ from ho'.octets_eq, List.append_assoc, List.append_assoc] at hcut
    obtain ⟨rfl, hrest⟩ := Header.octets_append_inj hcut
    -- all of the body is there, so octets are missing from the padding
    have hlength : body'.length = body.length := by
      have hsize := ho.size_eq
      rw [ho'.size_eq] at hsize
      omega
    obtain ⟨rfl, rfl⟩ := List.append_inj hrest hlength
    have hshort : tail'.length < F.framing.uncovered h'.size := by
      have hdrop : 0 < (bs.drop k).length := by
        rw [List.length_drop]
        omega
      rw [← hpad, List.length_append]
      omega
    rw [run_decode ho', outcome_of_fits hlayout (ne_false_of_eq_true hfits), hbody]
    exact Header.close_of_short hshort _

theorem RecordFormat.noticesCuts_of_eq {d : Decoder α} (F : RecordFormat α) (hd : d = F.decode) :
    d.NoticesCuts F.element := by
  rw [hd]
  exact F.noticesCuts

/-! ## Structures that declare their own length -/

theorem Decoder.noticesCuts_measured {e : Element} {least offset : Nat}
    (hoffset : offset + 2 ≤ least) (d : Decoder α) :
    (measured e least offset d).NoticesCuts e := by
  intro bs a hreads pos k hk
  have hlength : (bs.take k).length = k := List.length_take_of_le (Nat.le_of_lt hk)
  rcases run_measured_cases (α := α) e hoffset ⟨pos, bs⟩ with
    ⟨error, -, herror⟩ | ⟨chunk, tail, hrest, hleast, hfield, hrun⟩
  · have hok := (hreads []).run_all pos
    rw [herror] at hok
    cases (Prod.mk.inj hok).1
  · -- the length that is declared is that of all the octets
    have hall : bs.length ≤ chunk.length := by
      have hok := (hreads []).run_all pos
      rw [hrun] at hok
      exact List.drop_eq_nil_iff.1 (congrArg Cursor.rest (Prod.mk.inj hok).2)
    by_cases hcut : least ≤ k
    · have hsame : ((bs.take k).drop offset).take 2 = (bs.drop offset).take 2 := by
        rw [List.drop_take, List.take_take, Nat.min_eq_left (by omega)]
      refine ⟨chunk.length, (bs.take k).length, ⟨pos, bs.take k⟩, by omega, ?_⟩
      refine run_measured_of_lt e hoffset ?_ (hsame ▸ hfield) hleast ?_ d
      · rwa [hlength]
      · rw [hlength]
        omega
    · have hshort : (bs.take k).length < least := by omega
      exact ⟨least, (bs.take k).length, ⟨pos, bs.take k⟩, hshort,
        run_bind_error (run_need_of_lt hshort)⟩

/-! ## Match fields -/

theorem OxmHeader.octets_append_inj {h h' : OxmHeader} {rest rest' : Octets}
    (heq : h.octets ++ rest = h'.octets ++ rest') : h = h' := by
  have hrun := reads_read h rest 0
  rw [heq, reads_read h' rest' 0] at hrun
  exact (Except.ok.inj (Prod.mk.inj hrun).1).symm

theorem Field.noticesCuts_decode : decode.NoticesCuts .oxmField := by
  intro bs f hreads pos k hk
  have hbs : bs = f.octets := by simpa using octets_of_run_decode ((hreads []).run_all pos)
  rcases OxmHeader.expect_cases ⟨pos, bs.take k⟩ with
    ⟨n, hn, herror⟩ | ⟨h, payload, tail, ho, -⟩
  · exact ⟨n, _, _, hn, run_bind_error herror⟩
  · -- a header that is there asks for all the octets
    have hheader : h = f.header := by
      have hcut : bs.take k ++ bs.drop k = f.header.octets ++ (f.value.octets ++ f.maskOctets) := by
        rw [List.take_append_drop, hbs, octets_eq]
      rw [show bs.take k = _ from ho.octets_eq, List.append_assoc] at hcut
      exact OxmHeader.octets_append_inj hcut
    have hle : OxmHeader.width + h.payloadLength ≤ (bs.take k).length := ho.length_le
    rw [hheader, ← length_eq_header, ← length_octets, ← hbs, List.length_take] at hle
    omega

/-! ## Sequences -/

/-- Of the octets of a sequence, those that it is written as or others that are read as it, the ones
    of its first entries are read as these entries, and octets that end inside an entry are found to
    be too few. It does not matter under which limits the sequence is read from all its octets, as
    long as the limits of the second reading admit it. -/
structure DetectsCuts (α : Type) [Entry α] [Composite α] : Prop where
  between : ∀ {wide limits : Limits} {bs : Octets} {as : List α} {c : Cursor},
    (Sequence.decode wide).run (.start bs) = (.ok as, c) → limits.Admits as → ∀ j : Nat,
      (Sequence.decode limits).run (.start (bs.take (Sequence.length (as.take j))))
        = (.ok (as.take j), ⟨Sequence.length (as.take j), []⟩)
  inside : ∀ {wide limits : Limits} {bs : Octets} {as : List α} {c : Cursor},
    (Sequence.decode wide).run (.start bs) = (.ok as, c) → limits.Admits as →
      ∀ k < bs.length, (∀ j, k ≠ Sequence.length (as.take j)) →
        CutShort (Record.element α)
          ((Sequence.decode limits : Decoder (List α)).run (.start (bs.take k)))

/-- What is read under some limits is read under all that admit it. -/
theorem RestrictedByLimits.run_of_admits [Record α] [Composite α] (h : RestrictedByLimits α)
    {wide limits : Limits} {c c' : Cursor} {a : α}
    (hrun : (Record.decode wide : Decoder α).run c = (.ok a, c')) (hadmits : limits.Admits a) :
    (Record.decode limits : Decoder α).run c = (.ok a, c') := by
  obtain ⟨high, hwide, hlimits⟩ :
      ∃ high : Limits, (∀ r, wide.of r ≤ high.of r) ∧ ∀ r, limits.of r ≤ high.of r :=
    ⟨⟨fun r => max (wide.of r) (limits.of r)⟩, fun _ => Nat.le_max_left _ _,
      fun _ => Nat.le_max_right _ _⟩
  have hhigh := (h _ wide high (Limits.leUpTo_of_le hwide _) c c' a (Nat.le_refl _)).1 hrun
  exact (h _ limits high (Limits.leUpTo_of_le hlimits _) c c' a (Nat.le_refl _)).2
    ⟨hhigh.1, hadmits⟩

theorem KeepsPace.length_eq [Record α] {mark : LengthMark} {framing : Framing} {stepsOver : Bool}
    {limits : Limits} (h : KeepsPace α mark framing stepsOver limits) {bs : Octets} {a : α}
    (hreads : (Record.decode limits : Decoder α).Reads bs a) : bs.length = Record.length a := by
  obtain ⟨n, -, hlength, hroom, hcursor⟩ := h.ok _ _ _ ((hreads []).run_all 0)
  have hpos := congrArg Cursor.pos hcursor
  simp only [Cursor.pos_advance, Nat.zero_add] at hpos
  rw [hpos, hlength]

/-- A place in a row of octets is in one of them. -/
theorem exists_split {steps : List (Octets × α)} {k : Nat}
    (hk : k < (steps.flatMap Prod.fst).length) :
    ∃ before s after m, steps = before ++ s :: after ∧ m < s.1.length
      ∧ k = (before.flatMap Prod.fst).length + m := by
  induction steps generalizing k with
  | nil => exact absurd hk (Nat.not_lt_zero _)
  | cons s steps ih =>
    rw [List.flatMap_cons, List.length_append] at hk
    by_cases hfirst : k < s.1.length
    · exact ⟨[], s, steps, k, rfl, hfirst, (Nat.zero_add k).symm⟩
    · obtain ⟨before, s', after, m, rfl, hm, heq⟩ := @ih (k - s.1.length) (by omega)
      refine ⟨s :: before, s', after, m, rfl, hm, ?_⟩
      rw [List.flatMap_cons, List.length_append]
      omega

section Cutting

variable [Entry α] {mark : LengthMark} {framing : Framing} {stepsOver : Bool} {limits : Limits}
  {steps : List (Octets × α)}

theorem KeepsPace.length_steps (h : KeepsPace α mark framing stepsOver limits)
    (hsteps : (Record.decode limits : Decoder α).ReadsEach steps) :
    Sequence.length (steps.map Prod.snd) = (steps.flatMap Prod.fst).length := by
  induction steps with
  | nil => rfl
  | cons s steps ih =>
    obtain ⟨⟨-, hreads⟩, hrest⟩ := List.forall_mem_cons.1 hsteps
    rw [List.map_cons, Sequence.length_cons, List.flatMap_cons, List.length_append,
      h.length_eq hreads, ih hrest]

/-- An entry that is cut is missed after the entries before it were read. -/
theorem cutShort_decode {s : Octets × α} {m : Nat} (hm : 0 < m)
    (hsteps : (Record.decode limits : Decoder α).ReadsEach steps)
    (hroom : steps.length < limits.of (Entry.resource α))
    (hcut : ∀ pos, CutShort (Record.element α)
      ((Record.decode limits : Decoder α).run ⟨pos, s.1.take m⟩)) (hlt : m < s.1.length) :
    CutShort (Record.element α) ((Sequence.decode limits : Decoder (List α)).run
      (.start (steps.flatMap Prod.fst ++ s.1.take m))) := by
  have hpass := hsteps.pass 0 (s.1.take m)
  obtain ⟨needed, available, c, hfew, hrun⟩ := hcut (0 + (steps.flatMap Prod.fst).length)
  have hmore : s.1.take m ≠ [] := by
    apply List.length_pos_iff.1
    rw [List.length_take]
    omega
  refine ⟨needed, available, c, hfew, Stop.run_many (.unread hmore ?_ hrun) hpass⟩
  rwa [List.length_map]

variable [Composite α]

/-- The octets of the entries of a sequence, as they are under limits that admit it. -/
theorem Detached.exists_steps_of_admits (h : ∀ limits, Detached α limits)
    (hlimits : RestrictedByLimits α) {wide : Limits} {bs : Octets} {as : List α} {c : Cursor}
    (hrun : (Sequence.decode wide).run (.start bs) = (.ok as, c)) (hadmits : limits.Admits as) :
    ∃ steps : List (Octets × α), bs = steps.flatMap Prod.fst ∧ as = steps.map Prod.snd
      ∧ (Record.decode limits : Decoder α).ReadsEach steps
      ∧ steps.length ≤ limits.of (Entry.resource α) := by
  have hrun' := (hlimits.list fun limits => (h limits).consumes).run_of_admits hrun hadmits
  obtain ⟨hpass, hend, hroom⟩ := (run_many_ok_iff (h limits).consumes).1 hrun'
  obtain ⟨steps, hbs, rfl, hsteps⟩ := (h limits).exists_steps hpass hend
  rw [List.length_map] at hroom
  exact ⟨steps, hbs, rfl, hsteps, hroom⟩

theorem Detached.detectsCuts (h : ∀ limits, Detached α limits) (hlimits : RestrictedByLimits α)
    (hpace : ∀ limits, KeepsPace α mark framing stepsOver limits)
    (hcuts : ∀ limits, (Record.decode limits : Decoder α).NoticesCuts (Record.element α)) :
    DetectsCuts α where
  between := by
    intro wide limits bs as c hrun hadmits j
    obtain ⟨steps, rfl, rfl, hsteps, hroom⟩ := exists_steps_of_admits h hlimits hrun hadmits
    have hfront : (Record.decode limits : Decoder α).ReadsEach (steps.take j) :=
      fun s hs => hsteps s (List.mem_of_mem_take hs)
    have hoctets : steps.flatMap Prod.fst
        = (steps.take j).flatMap Prod.fst ++ (steps.drop j).flatMap Prod.fst := by
      rw [← List.flatMap_append, List.take_append_drop]
    rw [← List.map_take, (hpace limits).length_steps hfront, hoctets, List.take_left]
    refine Sequence.run_decode_steps hfront (Nat.le_trans ?_ hroom)
    exact List.length_take_le' ..
  inside := by
    intro wide limits bs as c hrun hadmits k hk hinside
    obtain ⟨steps, rfl, rfl, hsteps, hroom⟩ := exists_steps_of_admits h hlimits hrun hadmits
    obtain ⟨before, s, after, m, rfl, hm, rfl⟩ := exists_split hk
    have hbefore : (Record.decode limits : Decoder α).ReadsEach before :=
      fun s hs => hsteps s (List.mem_append_left _ hs)
    obtain ⟨-, hreads⟩ := hsteps s (List.mem_append_right _ List.mem_cons_self)
    -- the cut is not right after the entries before this one
    have hpos : 0 < m := by
      refine Nat.pos_of_ne_zero fun hzero => hinside before.length ?_
      rw [List.map_append, List.take_left' (List.length_map ..),
        (hpace limits).length_steps hbefore, hzero, Nat.add_zero]
    have hoctets : ((before ++ s :: after).flatMap Prod.fst).take
        ((before.flatMap Prod.fst).length + m) = before.flatMap Prod.fst ++ s.1.take m := by
      rw [List.flatMap_append, List.take_length_add_append, List.flatMap_cons,
        List.take_append_of_le_length (Nat.le_of_lt hm)]
    have hroom' : before.length < limits.of (Entry.resource α) := by
      simp only [List.length_append, List.length_cons] at hroom
      omega
    rw [hoctets]
    exact cutShort_decode hpos hbefore hroom' (fun pos => hcuts limits hreads pos hm) hm

end Cutting

/-! ## Every family -/

/-- Sequences of every family are read up to where they are cut, and no entry is made of part of
    its octets. -/
theorem lists_detect_cuts : DetectsCuts Action ∧ DetectsCuts Instruction ∧ DetectsCuts Bucket
    ∧ DetectsCuts TableProperty ∧ DetectsCuts QueueProperty ∧ DetectsCuts Field := by
  refine ⟨?_, ?_, ?_, ?_, ?_, ?_⟩
  · exact Detached.detectsCuts Action.detached Action.restricted Action.keepsPace fun _ =>
      Action.format.noticesCuts_of_eq Action.decode_eq
  · exact Detached.detectsCuts Instruction.detached Instruction.restricted Instruction.keepsPace
      fun limits => (Instruction.format limits).noticesCuts_of_eq (Instruction.decode_eq limits)
  · exact Detached.detectsCuts Bucket.detached Bucket.restricted Bucket.keepsPace fun _ =>
      noticesCuts_measured (by decide) _
  · exact Detached.detectsCuts TableProperty.detached TableProperty.restricted
      TableProperty.keepsPace fun limits =>
        (TableProperty.format limits).noticesCuts_of_eq (TableProperty.decode_eq limits)
  · exact Detached.detectsCuts QueueProperty.detached QueueProperty.restricted
      QueueProperty.keepsPace fun _ =>
        QueueProperty.format.noticesCuts_of_eq QueueProperty.decode_eq
  · exact Detached.detectsCuts Field.detached Field.restricted Field.keepsPace fun _ =>
      Field.noticesCuts_decode

/-- Two actions, cut after the first, in the header of the second and in its body. -/
theorem lists_detect_cuts_popVlan :
    let bs : Octets := [0, 18, 0, 8, 0, 0, 0, 0, 0, 23, 0, 8, 64, 0, 0, 0]
    let as : List Action := [.popVlan, .setNwTtl 64]
    let read (k : Nat) : Except DecodeError (List Action) × Cursor :=
      (Sequence.decode .small).run (.start (bs.take k))
    (Sequence.decode .standard).run (.start bs) = (.ok as, ⟨16, []⟩) ∧ Limits.small.Admits as
      ∧ read 8 = (.ok [.popVlan], ⟨8, []⟩)
      ∧ CutShort .action (read 10) ∧ CutShort .action (read 15) := by
  intro bs as read
  have hrun : (Sequence.decode .standard).run (.start bs) = (.ok as, ⟨16, []⟩) := rfl
  have hadmits : Limits.small.Admits as := by decide
  -- entries end after no octets, after eight and after sixteen
  have hinside {k : Nat} (hk : k ≠ 0 ∧ k ≠ 8 ∧ k ≠ 16) (j : Nat) :
      k ≠ Sequence.length (as.take j) := by
    match j with
    | 0 => exact hk.1
    | 1 => exact hk.2.1
    | n + 2 =>
      rw [List.take_of_length_le (Nat.le_add_left 2 n)]
      exact hk.2.2
  exact ⟨hrun, hadmits, lists_detect_cuts.1.between hrun hadmits 1,
    lists_detect_cuts.1.inside hrun hadmits 10 (by decide) (hinside (by decide)),
    lists_detect_cuts.1.inside hrun hadmits 15 (by decide) (hinside (by decide))⟩

end OpenFlow
