import OpenFlow.Proofs.Sequence.Detached

set_option autoImplicit false

/-! # Sequences that are put in a row

Where the octets of two sequences stand one after the other, reading comes to the entries of the
first and then to whatever reading the second alone comes to: its entries, or its error. So a
sequence that is read does not bear on what comes after it, and what comes after does not bear on
it; each entry is read from the octets that it occupies, wherever these stand (`lists_join`). -/

namespace OpenFlow

open Decoder

variable {α : Type}

/-- Reading sequences of entries goes along with putting octets in a row. There are no limits, but
    no buffer is longer than the largest number that counts entries. -/
structure Joins (α : Type) [Entry α] : Prop where
  ok : ∀ {bs cs : Octets} {as as' : List α} {c c' : Cursor},
    (bs ++ cs).length ≤ Limits.unbounded →
      (Sequence.decode .unlimited).run (.start bs) = (.ok as, c) →
        (Sequence.decode .unlimited).run (.start cs) = (.ok as', c') →
          (Sequence.decode .unlimited).run (.start (bs ++ cs))
            = (.ok (as ++ as'), c'.shift bs.length)
  error : ∀ {bs cs : Octets} {as : List α} {c c' : Cursor} {e : DecodeError},
    (bs ++ cs).length ≤ Limits.unbounded →
      (Sequence.decode .unlimited).run (.start bs) = (.ok as, c) →
        (Sequence.decode .unlimited : Decoder (List α)).run (.start cs) = (.error e, c') →
          (Sequence.decode .unlimited : Decoder (List α)).run (.start (bs ++ cs))
            = (.error e, c'.shift bs.length)
  /-- The octets fall into those of the entries, each of which is read from its own whatever comes
      before and after them. -/
  apart : ∀ {bs : Octets} {as : List α} {c : Cursor},
    (Sequence.decode .unlimited).run (.start bs) = (.ok as, c) →
      ∃ steps : List (Octets × α), bs = steps.flatMap Prod.fst ∧ as = steps.map Prod.snd
        ∧ (Record.decode .unlimited : Decoder α).ReadsEach steps

section Detached

variable [Record α] {limits : Limits} {bs : Octets} {as : List α} {c : Cursor}

/-- The octets of a pass fall into those of its values. -/
theorem Detached.exists_steps (h : Detached α limits)
    (hpass : Pass (Record.decode limits) (.start bs) as c) (hend : c.rest = []) :
    ∃ steps : List (Octets × α), bs = steps.flatMap Prod.fst ∧ as = steps.map Prod.snd
      ∧ (Record.decode limits : Decoder α).ReadsEach steps := by
  obtain ⟨steps, htrail, rfl⟩ := hpass.exists_trail h.steady
  refine ⟨steps, ?_, rfl, htrail.readsEach h.confined⟩
  simpa [hend] using htrail.rest_eq

/-- Octets that come after a pass leave it as it is. -/
theorem Detached.pass_append (h : Detached α limits)
    (hpass : Pass (Record.decode limits) (.start bs) as c) (hend : c.rest = []) (tail : Octets) :
    Pass (Record.decode limits) (.start (bs ++ tail)) as ⟨bs.length, tail⟩ := by
  obtain ⟨steps, rfl, rfl, hsteps⟩ := h.exists_steps hpass hend
  simpa [Cursor.start] using hsteps.pass 0 tail

/-- Where the octets of a pass are followed by those of another, so are its values. -/
theorem Detached.pass_join (h : Detached α limits) {cs : Octets} {as' : List α} {c' : Cursor}
    (hpass : Pass (Record.decode limits) (.start bs) as c) (hend : c.rest = [])
    (hpass' : Pass (Record.decode limits) (.start cs) as' c') :
    Pass (Record.decode limits) (.start (bs ++ cs)) (as ++ as') (c'.shift bs.length) :=
  (h.pass_append hpass hend cs).append (hpass'.shift h.steady bs.length)

end Detached

/-- Octets of entries, put in a row, are read as these entries if there is room for them. -/
theorem Sequence.run_decode_steps [Entry α] {limits : Limits} {steps : List (Octets × α)}
    (h : (Record.decode limits : Decoder α).ReadsEach steps)
    (hroom : steps.length ≤ limits.of (Entry.resource α)) :
    (Sequence.decode limits).run (.start (steps.flatMap Prod.fst))
      = (.ok (steps.map Prod.snd), ⟨(steps.flatMap Prod.fst).length, []⟩) := by
  have hpass := h.pass 0 []
  rw [List.append_nil, Nat.zero_add] at hpass
  exact hpass.run_many rfl (by rwa [List.length_map])

theorem Detached.joins [Entry α] (h : Detached α .unlimited) : Joins α where
  ok := by
    intro bs cs as as' c c' hsize hfirst hsecond
    obtain ⟨hpass, hend, -⟩ := (run_many_ok_iff h.consumes).1 hfirst
    obtain ⟨hpass', hend', -⟩ := (run_many_ok_iff h.consumes).1 hsecond
    have hall := h.pass_join hpass hend hpass'
    exact hall.run_many hend' (Nat.le_trans hall.length_le hsize)
  error := by
    intro bs cs as c c' e hsize hfirst hsecond
    obtain ⟨hpass, hend, -⟩ := (run_many_ok_iff h.consumes).1 hfirst
    obtain ⟨as', c₁, hpass', hstop⟩ := (run_many_error_iff h.consumes).1 hsecond
    have hall := h.pass_join hpass hend hpass'
    have hlength := hpass'.length_add_le
    have hlength' := hall.length_add_le
    simp only [Cursor.remaining_shift] at hlength'
    -- octets are left, so there have not been as many entries as can be counted
    cases hstop with
    | full hmore hfull =>
      have hpos := remaining_pos_of_rest_ne_nil hmore
      have hcs : (Cursor.start cs).remaining ≤ (bs ++ cs).length := by
        simp [Cursor.remaining]
      have hbound : as'.length = Limits.unbounded := hfull
      omega
    | unread hmore hroom hrun =>
      have hpos := remaining_pos_of_rest_ne_nil hmore
      have hmore' : (c₁.shift bs.length).rest ≠ [] := hmore
      have hroom' : (as ++ as').length < Limits.unbounded :=
        Nat.lt_of_lt_of_le (by omega) (Nat.le_trans hlength' hsize)
      exact (Stop.unread hmore' hroom' (h.steady.run_shift_eq hrun bs.length)).run_many hall
  apart := by
    intro bs as c hrun
    obtain ⟨hpass, hend, -⟩ := (run_many_ok_iff h.consumes).1 hrun
    exact h.exists_steps hpass hend

/-- Sequences of every family are read entry by entry, and no entry reaches into another. -/
theorem lists_join : Joins Action ∧ Joins Instruction ∧ Joins Bucket ∧ Joins TableProperty
    ∧ Joins QueueProperty ∧ Joins Field :=
  ⟨(Action.detached _).joins, (Instruction.detached _).joins, (Bucket.detached _).joins,
    (TableProperty.detached _).joins, (QueueProperty.detached _).joins, (Field.detached _).joins⟩

/-- A list of two actions, and then one whose second action reaches past the end, each after the
    octets of one action. The error is the one that the second octets alone come to, later by the
    first. -/
theorem lists_join_popVlan :
    let one : Octets := [0, 18, 0, 8, 0, 0, 0, 0]
    let two : Octets := [0, 24, 0, 8, 0, 0, 0, 0, 0, 12, 0, 8, 0, 0, 0, 0]
    let cut : Octets := [0, 24, 0, 8, 0, 0, 0, 0, 0, 12, 0, 16, 0, 0, 0, 0]
    let read (bs : Octets) : Except DecodeError (List Action) × Cursor :=
      (Sequence.decode .unlimited).run (.start bs)
    read one = (.ok [.popVlan], ⟨8, []⟩)
      ∧ read (one ++ two) = (.ok [.popVlan, .decNwTtl, .copyTtlIn], ⟨24, []⟩)
      ∧ read (one ++ cut) = (.error (.truncated .action 16 8), ⟨16, cut.drop 8⟩)
      ∧ ∃ steps : List (Octets × Action), two = steps.flatMap Prod.fst
        ∧ [.decNwTtl, .copyTtlIn] = steps.map Prod.snd
        ∧ (Record.decode .unlimited : Decoder Action).ReadsEach steps := by
  intro one two cut read
  have hone : read one = (.ok [.popVlan], ⟨8, []⟩) := rfl
  have htwo : read two = (.ok [.decNwTtl, .copyTtlIn], ⟨16, []⟩) := rfl
  have hcut : read cut = (.error (.truncated .action 16 8), ⟨8, cut.drop 8⟩) := rfl
  exact ⟨hone, lists_join.1.ok (by decide) hone htwo, lists_join.1.error (by decide) hone hcut,
    lists_join.1.apart htwo⟩

end OpenFlow
