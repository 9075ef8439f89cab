import OpenFlow.Proofs.KeyedSet.Lookup

set_option autoImplicit false

/-! # How a set is read

Reading a set reads entry after entry and stops at one whose key is taken (`KeyedSet.run_decode_iff`).
What comes out is the set of the list that the entries make: it holds all of them, in the order of
their keys (`KeyedSet.toList_ofList_perm`). -/

namespace OpenFlow.KeyedSet

open Decoder

variable {α : Type}

/-! ## Entries of different keys -/

theorem perm_store {key : Nat} {slots : List (Nat × α)} (a : α)
    (h : key ∉ slots.map Prod.fst) : (store key a slots).Perm ((key, a) :: slots) := by
  induction slots with
  | nil => exact List.Perm.refl _
  | cons slot slots ih =>
    obtain ⟨k, b⟩ := slot
    rw [List.map_cons, List.mem_cons, not_or] at h
    obtain ⟨hne, hslots⟩ : ¬ key = k ∧ _ := h
    rw [store, if_neg hne]
    split
    · exact List.Perm.refl _
    · exact ((ih hslots).cons _).trans (List.Perm.swap _ _ _)

theorem toList_put_perm {s : KeyedSet α} {key : Nat} (a : α) (h : s.get? key = none) :
    (s.put key a).toList.Perm (a :: s.toList) := by
  refine (perm_store a fun hmem => ?_).map Prod.snd
  obtain ⟨b, hb⟩ := mem_keys_iff.1 hmem
  rw [h] at hb
  cases hb

variable [Keyed α]

/-- The entries have keys that no two of them share and that are free in `s`. -/
def FreeIn (s : KeyedSet α) (as : List α) : Prop :=
  (as.map Keyed.key).Nodup ∧ ∀ a ∈ as, s.get? (Keyed.key a) = none

theorem freeIn_nil (s : KeyedSet α) : s.FreeIn [] := ⟨List.nodup_nil, List.forall_mem_nil _⟩

/-- After an entry is stored the rest of the entries are free, if all were before. -/
theorem freeIn_cons_iff {s : KeyedSet α} {a : α} {as : List α} :
    s.FreeIn (a :: as) ↔
      s.get? (Keyed.key a) = none ∧ (s.put (Keyed.key a) a).FreeIn as := by
  unfold FreeIn
  rw [List.map_cons, List.nodup_cons, List.forall_mem_cons]
  constructor
  · rintro ⟨⟨hout, hnodup⟩, hfree, hrest⟩
    refine ⟨hfree, hnodup, fun b hb => ?_⟩
    have hne : Keyed.key b ≠ Keyed.key a := fun heq => hout (heq ▸ List.mem_map_of_mem hb)
    rw [get?_put, if_neg hne]
    exact hrest b hb
  · rintro ⟨hfree, hnodup, hrest⟩
    have hother (b : α) (hb : b ∈ as) :
        Keyed.key b ≠ Keyed.key a ∧ s.get? (Keyed.key b) = none := by
      have hput := hrest b hb
      rw [get?_put] at hput
      by_cases heq : Keyed.key b = Keyed.key a
      · rw [if_pos heq] at hput
        cases hput
      · rw [if_neg heq] at hput
        exact ⟨heq, hput⟩
    refine ⟨⟨fun hmem => ?_, hnodup⟩, hfree, fun b hb => (hother b hb).2⟩
    obtain ⟨b, hb, heq⟩ := List.mem_map.1 hmem
    exact (hother b hb).1 heq

theorem toList_extend_perm {s : KeyedSet α} {as : List α} (h : s.FreeIn as) :
    (s.extend as).toList.Perm (as ++ s.toList) := by
  induction as generalizing s with
  | nil => exact List.Perm.refl _
  | cons a as ih =>
    obtain ⟨hfree, hrest⟩ := freeIn_cons_iff.1 h
    rw [extend_cons, insert_of_free hfree]
    have hput : (as ++ (s.put (Keyed.key a) a).toList).Perm (as ++ a :: s.toList) :=
      (toList_put_perm a hfree).append_left as
    exact ((ih hrest).trans hput).trans List.perm_middle

/-- A list of entries of different keys has the entries of its set. -/
theorem toList_ofList_perm {as : List α} (h : (as.map Keyed.key).Nodup) :
    (ofList as).toList.Perm as := by
  have hperm := toList_extend_perm (s := empty) ⟨h, fun _ _ => rfl⟩
  rwa [show (empty : KeyedSet α).toList = [] from rfl, List.append_nil] at hperm

/-! ## Reading -/

/-- A walk of reading into a set is a pass of its entries, whose keys are free. -/
theorem walk_decodeEntry_iff {limits : Limits} {n : Nat} {s t : KeyedSet α} {c c' : Cursor} :
    Walk (decodeEntry limits) n s c t c' ↔ ∃ as, as.length = n
      ∧ Pass (Record.decode limits) c as c' ∧ s.FreeIn as ∧ s.extend as = t := by
  constructor
  · intro h
    induction h with
    | nil s c => exact ⟨[], rfl, .nil c, freeIn_nil s, rfl⟩
    | @cons n s s' t c c₁ c' hrun hlt rest ih =>
      obtain ⟨a, hread, hfree, rfl⟩ := run_decodeEntry_iff.1 hrun
      obtain ⟨as, rfl, hpass, hrest, rfl⟩ := ih
      refine ⟨a :: as, rfl, .cons hread hlt hpass, freeIn_cons_iff.2 ⟨hfree, hrest⟩, ?_⟩
      rw [extend_cons, insert_of_free hfree]
  · rintro ⟨as, rfl, hpass, hfree, rfl⟩
    induction hpass generalizing s with
    | nil c => exact .nil s c
    | @cons a as c c₁ c' hrun hlt rest ih =>
      obtain ⟨ha, hrest⟩ := freeIn_cons_iff.1 hfree
      rw [extend_cons, insert_of_free ha]
      exact .cons (run_decodeEntry_iff.2 ⟨a, hrun, ha, rfl⟩) hlt (ih hrest)

theorem consumes_decodeEntry {limits : Limits}
    (hd : (Record.decode limits : Decoder α).Consumes) (s : KeyedSet α) :
    (decodeEntry limits s).Consumes := by
  intro c t c' hrun
  obtain ⟨a, hread, -⟩ := run_decodeEntry_iff.1 hrun
  exact hd c a c' hread

/-- A reading of an entry fails when the entry cannot be read, and when its key is taken. -/
theorem run_decodeEntry_error_iff {limits : Limits} {s : KeyedSet α} {c c' : Cursor}
    {e : DecodeError} :
    (decodeEntry limits s).run c = (.error e, c') ↔
      (Record.decode limits : Decoder α).run c = (.error e, c') ∨
        ∃ a, (Record.decode limits : Decoder α).run c = (.ok a, c') ∧ s.get? (Keyed.key a) ≠ none
          ∧ e = .duplicateKey (Keyed.container α) (Keyed.key a) := by
  unfold decodeEntry
  rcases hrun : (Record.decode limits : Decoder α).run c with ⟨e' | a, c₁⟩
  · rw [Decoder.run_bind_error hrun]
    simp
  · rw [Decoder.run_bind_ok hrun]
    cases hkey : s.get? (Keyed.key a) with
    | none =>
      simp only [insert_of_free hkey, run_pure, Prod.mk.injEq, reduceCtorEq, false_and,
        Except.ok.injEq, false_or, false_iff]
      rintro ⟨b, ⟨rfl, -⟩, htaken, -⟩
      exact htaken hkey
    | some old =>
      simp only [insert_of_taken hkey, run_fail, Prod.mk.injEq, reduceCtorEq, false_and,
        Except.error.injEq, Except.ok.injEq, false_or]
      constructor
      · rintro ⟨rfl, rfl⟩
        exact ⟨a, ⟨rfl, rfl⟩, by simp [hkey], rfl⟩
      · rintro ⟨b, ⟨rfl, rfl⟩, -, rfl⟩
        exact ⟨rfl, rfl⟩

/-- The entries `as` stand between the cursors `c` and `c'`, no more of them than there may be,
    and with keys that differ. -/
structure Stand (limits : Limits) (c : Cursor) (as : List α) (c' : Cursor) : Prop where
  pass : Pass (Record.decode limits) c as c'
  room : as.length ≤ limits.of (Entry.resource α)
  distinct : (as.map Keyed.key).Nodup

/-- What comes of reading entries of different keys from the cursor `c`, and where it stops: all of
    them, or the error of the entry that is one too many, cannot be read or has the key of one
    before it. -/
inductive Reading (limits : Limits) (c : Cursor) : Except DecodeError (List α) → Cursor → Prop where
  | finished {as : List α} {c' : Cursor} (stand : Stand limits c as c') (hend : c'.rest = []) :
      Reading limits c (.ok as) c'
  | overfull {as : List α} {c' : Cursor} (stand : Stand limits c as c') (hmore : c'.rest ≠ [])
      (hfull : as.length = limits.of (Entry.resource α)) :
      Reading limits c (.error (Sequence.overfull α limits)) c'
  | failed {as : List α} {c' c'' : Cursor} {e : DecodeError} (stand : Stand limits c as c')
      (hmore : c'.rest ≠ []) (hroom : as.length < limits.of (Entry.resource α))
      (hrun : (Record.decode limits : Decoder α).run c' = (.error e, c'')) :
      Reading limits c (.error e) c''
  | repeated {as : List α} {a : α} {c' c'' : Cursor} (stand : Stand limits c as c')
      (hroom : as.length < limits.of (Entry.resource α))
      (hrun : (Record.decode limits : Decoder α).run c' = (.ok a, c''))
      (htaken : Keyed.key a ∈ as.map Keyed.key) :
      Reading limits c (.error (.duplicateKey (Keyed.container α) (Keyed.key a))) c''

theorem get?_ofList_eq_none_iff {as : List α} {key : Nat} :
    (ofList as).get? key = none ↔ key ∉ as.map Keyed.key := by
  rw [ofList, get?_extend, get?_empty, Option.none_or, List.find?_eq_none, List.mem_map,
    not_exists]
  refine forall_congr' fun a => ?_
  rw [not_and, beq_iff_eq, eq_comm (a := key)]

/-- The walk of reading into the empty set makes the set of the entries that stand there. -/
theorem walk_empty_iff {limits : Limits} {n : Nat} (hn : n ≤ limits.of (Entry.resource α))
    {t : KeyedSet α} {c c' : Cursor} :
    Walk (decodeEntry limits) n empty c t c' ↔
      ∃ as, Stand limits c as c' ∧ as.length = n ∧ ofList as = t := by
  rw [walk_decodeEntry_iff]
  constructor
  · rintro ⟨as, rfl, hpass, hfree, rfl⟩
    exact ⟨as, ⟨hpass, hn, hfree.1⟩, rfl, rfl⟩
  · rintro ⟨as, hstand, rfl, rfl⟩
    exact ⟨as, rfl, hstand.pass, ⟨hstand.distinct, fun _ _ => rfl⟩, rfl⟩

/-- Reading a set is reading entries of different keys. -/
theorem run_decode_iff {limits : Limits} (hd : (Record.decode limits : Decoder α).Consumes)
    {answer : Except DecodeError (KeyedSet α)} {c c' : Cursor} :
    (decode limits).run c = (answer, c') ↔
      ∃ result, Reading limits c result c' ∧ result.map ofList = answer := by
  unfold decode
  rw [run_untilEmpty_iff (consumes_decodeEntry hd)]
  constructor
  · intro h
    cases h with
    | finished walk hend hroom =>
      obtain ⟨as, hstand, -, rfl⟩ := (walk_empty_iff hroom).1 walk
      exact ⟨.ok as, .finished hstand hend, rfl⟩
    | full walk hmore =>
      obtain ⟨as, hstand, hfull, rfl⟩ := (walk_empty_iff (Nat.le_refl _)).1 walk
      exact ⟨.error _, .overfull hstand hmore hfull, rfl⟩
    | failed walk hmore hroom hrun =>
      obtain ⟨as, hstand, rfl, rfl⟩ := (walk_empty_iff (Nat.le_of_lt hroom)).1 walk
      rcases run_decodeEntry_error_iff.1 hrun with hread | ⟨a, hread, htaken, rfl⟩
      · exact ⟨.error _, .failed hstand hmore hroom hread, rfl⟩
      · have hmem := Decidable.not_not.1 (mt get?_ofList_eq_none_iff.2 htaken)
        exact ⟨.error _, .repeated hstand hroom hread hmem, rfl⟩
  · rintro ⟨result, hreading, rfl⟩
    cases hreading with
    | @finished as _ hstand hend =>
      exact .finished ((walk_empty_iff hstand.room).2 ⟨as, hstand, rfl, rfl⟩) hend hstand.room
    | @overfull as _ hstand hmore hfull =>
      exact .full ((walk_empty_iff (Nat.le_refl _)).2 ⟨as, hstand, hfull, rfl⟩) hmore
    | @failed as _ _ _ hstand hmore hroom hrun =>
      exact .failed ((walk_empty_iff hstand.room).2 ⟨as, hstand, rfl, rfl⟩) hmore hroom
        (run_decodeEntry_error_iff.2 (.inl hrun))
    | @repeated as a c₁ _ hstand hroom hrun htaken =>
      have hmore := rest_ne_nil_of_remaining_lt (hd _ _ _ hrun)
      have hkey : (ofList as).get? (Keyed.key a) ≠ none := fun h =>
        get?_ofList_eq_none_iff.1 h htaken
      exact .failed ((walk_empty_iff hstand.room).2 ⟨as, hstand, rfl, rfl⟩) hmore hroom
        (run_decodeEntry_error_iff.2 (.inr ⟨a, hrun, hkey, rfl⟩))

/-- A set is read if its entries stand there up to the end. -/
theorem run_decode_ok_iff {limits : Limits} (hd : (Record.decode limits : Decoder α).Consumes)
    {t : KeyedSet α} {c c' : Cursor} :
    (decode limits).run c = (.ok t, c') ↔
      ∃ as, Stand limits c as c' ∧ c'.rest = [] ∧ ofList as = t := by
  rw [run_decode_iff hd]
  constructor
  · rintro ⟨result, hreading, hmap⟩
    cases hreading with
    | @finished as _ hstand hend => exact ⟨as, hstand, hend, Except.ok.inj hmap⟩
    | overfull | failed | repeated => cases hmap
  · rintro ⟨as, hstand, hend, rfl⟩
    exact ⟨.ok as, .finished hstand hend, rfl⟩

end OpenFlow.KeyedSet
