import OpenFlow.Proofs.Sequence.Joining

set_option autoImplicit false

/-! # Stepping over what is unknown

`Sequence.decodeKnown` reads whatever `Sequence.decode` reads, to the same entries, and fails as it
does unless an unknown kind is what it fails for. Where it does step over something, each of its
steps accounts for a piece of the octets: the pieces that came to entries, put in a row, are read
strictly as those entries and no others (`lists_extend_strict`). -/

namespace OpenFlow

open Decoder

variable {α : Type}

namespace Decoder

/-! ## Values only -/

theorem run_known_ok_iff {d : Decoder α} {c c' : Cursor} {a : α} :
    (known d).run c = (.ok (.ok a), c') ↔ d.run c = (.ok a, c') := by
  constructor
  · intro h
    rcases run_known_cases h with ⟨b, hb, hrun⟩ | ⟨e, code, hb, -, -⟩
    · obtain rfl : a = b := Except.ok.inj hb
      exact hrun
    · cases hb
  · exact run_known_of_ok

theorem pass_known_iff {d : Decoder α} {as : List α} {c c' : Cursor} :
    Pass (known d) c (as.map .ok) c' ↔ Pass d c as c' := by
  constructor
  · intro h
    induction as generalizing c with
    | nil =>
      cases h
      exact .nil _
    | cons a as ih =>
      cases h with
      | cons hrun hlt rest => exact .cons (run_known_ok_iff.1 hrun) hlt (ih rest)
  · intro h
    induction h with
    | nil c => exact .nil c
    | cons hrun hlt rest ih => exact .cons (run_known_ok_iff.2 hrun) hlt ih

theorem sides_eq_iff {xs : List (Except Nat α)} {as : List α} :
    sides xs = (as, []) ↔ xs = as.map .ok := by
  induction xs generalizing as with
  | nil => simp [sides, eq_comm]
  | cons x xs ih =>
    rw [← sortIn_sides]
    cases x with
    | error code => cases as <;> simp [sortIn]
    | ok a =>
      cases as with
      | nil => simp [sortIn]
      | cons b as =>
        have hrest := @ih as
        simp only [Prod.ext_iff] at hrest
        simp [sortIn, and_assoc, hrest]

/-! ## What is kept -/

/-- The steps that came to a value. -/
def kept (steps : List (Octets × Except Nat α)) : List (Octets × α) :=
  steps.filterMap fun s => s.2.toOption.map (s.1, ·)

theorem mem_kept {steps : List (Octets × Except Nat α)} {s : Octets × α} :
    s ∈ kept steps ↔ (s.1, .ok s.2) ∈ steps := by
  unfold kept
  rw [List.mem_filterMap]
  constructor
  · rintro ⟨⟨bs, x⟩, hmem, hs⟩
    cases x with
    | error code => simp [Except.toOption] at hs
    | ok a =>
      obtain rfl : (bs, a) = s := by simpa [Except.toOption] using hs
      exact hmem
  · intro hmem
    exact ⟨_, hmem, rfl⟩

theorem map_snd_kept (steps : List (Octets × Except Nat α)) :
    (kept steps).map Prod.snd = (sides (steps.map Prod.snd)).1 := by
  induction steps with
  | nil => rfl
  | cons s steps ih =>
    rw [List.map_cons, ← sortIn_sides]
    obtain ⟨bs, x⟩ := s
    cases x with
    | error code => exact ih
    | ok a => exact congrArg (a :: ·) ih

end Decoder

/-! ## Sequences -/

/-- The steps account for the octets `bs`: all of them were stepped over, an octet at least at a
    time, and what was not skipped is read strictly. -/
structure Accounts [Entry α] (limits : Limits) (steps : List (Octets × Except Nat α)) (bs : Octets)
    (as : List α) (skipped : List Nat) : Prop where
  trail : ∃ c, Trail (known (Record.decode limits)) (.start bs) steps c ∧ c.rest = []
  octets_eq : bs = steps.flatMap Prod.fst
  takes : ∀ s ∈ steps, s.1 ≠ []
  sides_eq : sides (steps.map Prod.snd) = (as, skipped)
  room : as.length + skipped.length ≤ limits.of (Entry.resource α)
  kept_eq : (Sequence.decode limits).run (.start ((kept steps).flatMap Prod.fst))
    = (.ok as, ⟨((kept steps).flatMap Prod.fst).length, []⟩)

/-- Reading with unknown kinds stepped over goes beyond strict reading, and agrees with it where
    that comes to a result or fails for another reason. -/
structure ExtendsStrict (α : Type) [Entry α] (limits : Limits) : Prop where
  ok_iff : ∀ {c c' : Cursor} {as : List α},
    (Sequence.decodeKnown limits).run c = (.ok (as, []), c') ↔
      (Sequence.decode limits).run c = (.ok as, c')
  failure : ∀ {c c' : Cursor} {e : DecodeError},
    (Sequence.decode limits : Decoder (List α)).run c = (.error e, c') → e.unknownCode? = none →
      (Sequence.decodeKnown limits : Decoder (List α × List Nat)).run c = (.error e, c')
  accounted : ∀ {bs : Octets} {c : Cursor} {as : List α} {skipped : List Nat},
    (Sequence.decodeKnown limits).run (.start bs) = (.ok (as, skipped), c) →
      ∃ steps, Accounts limits steps bs as skipped

namespace Detached

variable [Entry α] {limits : Limits}

theorem run_decodeKnown_iff (h : Detached α limits) {c c' : Cursor} {as : List α}
    {skipped : List Nat} :
    (Sequence.decodeKnown limits).run c = (.ok (as, skipped), c') ↔
      ∃ xs, (Pass (known (Record.decode limits)) c xs c' ∧ c'.rest = []
        ∧ xs.length ≤ limits.of (Entry.resource α)) ∧ sides xs = (as, skipped) := by
  unfold Sequence.decodeKnown
  rw [manyKnown_eq_many, run_bind_pure_iff]
  simp only [run_many_ok_iff h.consumes_known]

theorem accounts (h : Detached α limits) {bs : Octets} {c : Cursor} {as : List α}
    {skipped : List Nat}
    (hrun : (Sequence.decodeKnown limits).run (.start bs) = (.ok (as, skipped), c)) :
    ∃ steps, Accounts limits steps bs as skipped := by
  obtain ⟨xs, ⟨hpass, hend, hroom⟩, hsides⟩ := h.run_decodeKnown_iff.1 hrun
  obtain ⟨steps, htrail, rfl⟩ := hpass.exists_trail h.steady.known
  have hlength : as.length + skipped.length ≤ limits.of (Entry.resource α) := by
    have hsum := length_sides (steps.map Prod.snd)
    rw [hsides] at hsum
    exact Nat.le_trans (Nat.le_of_eq hsum) hroom
  have hvalues : (kept steps).map Prod.snd = as := by rw [map_snd_kept, hsides]
  -- a step that came to an entry is a read of it, and that does not depend on its neighbours
  have hkept : (Record.decode limits : Decoder α).ReadsEach (kept steps) := by
    intro s hs
    obtain ⟨c₁, c₂, hstep, hrest⟩ := htrail.exists_run _ (mem_kept.1 hs)
    exact ⟨htrail.ne_nil _ (mem_kept.1 hs), h.confined.reads (run_known_ok_iff.1 hstep) hrest⟩
  refine ⟨steps, ⟨c, htrail, hend⟩, ?_, htrail.ne_nil, hsides, hlength, ?_⟩
  · simpa [hend] using htrail.rest_eq
  · rw [← hvalues]
    refine Sequence.run_decode_steps hkept ?_
    rw [← List.length_map (f := Prod.snd), hvalues]
    exact Nat.le_trans (Nat.le_add_right _ _) hlength

theorem extendsStrict (h : Detached α limits) : ExtendsStrict α limits where
  ok_iff := by
    intro c c' as
    rw [h.run_decodeKnown_iff]
    simp only [sides_eq_iff]
    constructor
    · rintro ⟨_, ⟨hpass, hend, hroom⟩, rfl⟩
      rw [List.length_map] at hroom
      exact (pass_known_iff.1 hpass).run_many hend hroom
    · intro hrun
      obtain ⟨hpass, hend, hroom⟩ := (run_many_ok_iff h.consumes).1 hrun
      refine ⟨as.map .ok, ⟨pass_known_iff.2 hpass, hend, ?_⟩, rfl⟩
      rwa [List.length_map]
  failure := by
    intro c c' e hrun hcode
    obtain ⟨as, c₁, hpass, hstop⟩ := (run_many_error_iff h.consumes).1 hrun
    -- no entry before the failure was unknown, so both loops have come to the same place
    have hstop' := hstop.of_error fun _ herror => run_known_of_error herror hcode
    rw [← List.length_map (f := Except.ok (ε := Nat))] at hstop'
    unfold Sequence.decodeKnown
    rw [manyKnown_eq_many, run_bind_pure_error_iff]
    exact hstop'.run_many (pass_known_iff.2 hpass)
  accounted := h.accounts

end Detached

/-- Stepping over unknown kinds extends strict reading, in sequences of every family and in the
    lists of ids that a table property holds. -/
theorem lists_extend_strict (limits : Limits) :
    ExtendsStrict Action limits ∧ ExtendsStrict Instruction limits ∧ ExtendsStrict Bucket limits
      ∧ ExtendsStrict TableProperty limits ∧ ExtendsStrict QueueProperty limits
      ∧ ExtendsStrict Field limits ∧ ∀ s : IdSort, ExtendsStrict s.Id limits :=
  ⟨(Action.detached limits).extendsStrict, (Instruction.detached limits).extendsStrict,
    (Bucket.detached limits).extendsStrict, (TableProperty.detached limits).extendsStrict,
    (QueueProperty.detached limits).extendsStrict, (Field.detached limits).extendsStrict,
    fun s => (s.detached limits).extendsStrict⟩

end OpenFlow
