import Mathlib.Data.List.Induction
import OpenFlow.Proofs.KeyedSet.Reading
import OpenFlow.Proofs.Octets.Trail
import OpenFlow.Proofs.Recoding.Field
import OpenFlow.Proofs.Recoding.Instruction

set_option autoImplicit false

/-! # Sets are read as sequences are

A set and a sequence are read by two loops over the same octets, which differ in what they do with
an entry whose key is taken: the set stops there. As long as keys differ the loops come to the same,
be it the entries or an error, and the set holds all entries of the sequence; if a key repeats, the
set fails for the first entry that repeats one, no later than the sequence comes to its end
(`sets_agree_with_lists`). -/

namespace OpenFlow

open Decoder

variable {α : Type} [Keyed α]

/-! ## The first key that repeats -/

/-- In a list of entries `before`, `a` and then `after`, the entry `a` is the first whose key has
    occurred. -/
structure FirstRepeat (before : List α) (a : α) (after as : List α) : Prop where
  split : as = before ++ a :: after
  distinct : (before.map Keyed.key).Nodup
  taken : Keyed.key a ∈ before.map Keyed.key

/-- Keys differ, or there is a first that repeats. -/
theorem nodup_or_firstRepeat (as : List α) :
    (as.map Keyed.key).Nodup ∨ ∃ before a after, FirstRepeat before a after as := by
  induction as using List.reverseRecOn with
  | nil => exact .inl List.nodup_nil
  | append_singleton as a ih =>
    rcases ih with hdistinct | ⟨before, b, after, rfl, hdistinct, htaken⟩
    · by_cases htaken : Keyed.key a ∈ as.map Keyed.key
      · exact .inr ⟨as, a, [], rfl, hdistinct, htaken⟩
      · refine .inl ?_
        rw [List.map_append, List.nodup_append]
        refine ⟨hdistinct, List.nodup_singleton _, ?_⟩
        simp only [List.map_cons, List.map_nil, List.mem_singleton]
        rintro key hkey _ rfl rfl
        exact htaken hkey
    · refine .inr ⟨before, b, after ++ [a], ?_, hdistinct, htaken⟩
      simp

/-! ## The two loops -/

/-- Reading a set comes to what reading a sequence comes to, unless a key repeats before. -/
structure AgreesWithList (α : Type) [Keyed α] (limits : Limits) : Prop where
  ok_iff : ∀ {c c' : Cursor} {s : KeyedSet α},
    (KeyedSet.decode limits).run c = (.ok s, c') ↔
      ∃ as, (Sequence.decode limits).run c = (.ok as, c') ∧ (as.map Keyed.key).Nodup
        ∧ KeyedSet.ofList as = s
  /-- The set holds every entry of the sequence, under its key, and nothing else. -/
  whole : ∀ {c c' : Cursor} {as : List α},
    (Sequence.decode limits).run c = (.ok as, c') → (as.map Keyed.key).Nodup →
      (KeyedSet.ofList as).toList.Perm as ∧ (KeyedSet.ofList as).size = as.length
        ∧ ∀ a ∈ as, (KeyedSet.ofList as).get? (Keyed.key a) = some a
  /-- Of a sequence in which a key repeats, the set fails at the first entry that repeats one; the
      entries after it stand between the place where it fails and the end. -/
  repeated : ∀ {c c' : Cursor} {as : List α},
    (Sequence.decode limits).run c = (.ok as, c') → ¬ (as.map Keyed.key).Nodup →
      ∃ before a after c₁, FirstRepeat before a after as
        ∧ (KeyedSet.decode limits : Decoder (KeyedSet α)).run c
          = (.error (.duplicateKey (Keyed.container α) (Keyed.key a)), c₁)
        ∧ Pass (Record.decode limits) c₁ after c'
  /-- Where a sequence cannot be read, some of its entries can, and it stops after these. The set
      stops there as well and fails for the same reason, or it fails earlier, at the first of these
      entries that repeats a key. -/
  failed : ∀ {c c' : Cursor} {e : DecodeError},
    (Sequence.decode limits : Decoder (List α)).run c = (.error e, c') →
      ∃ (as : List α) (c₀ : Cursor), Pass (Record.decode limits) c as c₀
        ∧ Stop (limits.of (Entry.resource α)) (Sequence.overfull α limits)
          (Record.decode limits : Decoder α) as.length c₀ e c'
        ∧ ((as.map Keyed.key).Nodup
            ∧ (KeyedSet.decode limits : Decoder (KeyedSet α)).run c = (.error e, c')
          ∨ ∃ before a after c₁, FirstRepeat before a after as
            ∧ (KeyedSet.decode limits : Decoder (KeyedSet α)).run c
              = (.error (.duplicateKey (Keyed.container α) (Keyed.key a)), c₁)
            ∧ Pass (Record.decode limits) c₁ after c₀)

namespace KeyedSet

variable {limits : Limits} {c c' c₀ : Cursor} {as : List α} {e : DecodeError}

/-- A set stops right after the first entry that repeats a key. -/
theorem run_decode_of_firstRepeat (hd : (Record.decode limits : Decoder α).Consumes)
    (hpass : Pass (Record.decode limits) c as c₀)
    (hroom : as.length ≤ limits.of (Entry.resource α)) {before after : List α} {a : α}
    (h : FirstRepeat before a after as) :
    ∃ c₁, (decode limits : Decoder (KeyedSet α)).run c
        = (.error (.duplicateKey (Keyed.container α) (Keyed.key a)), c₁)
      ∧ Pass (Record.decode limits) c₁ after c₀ := by
  obtain ⟨rfl, hdistinct, htaken⟩ := h
  obtain ⟨c₂, hbefore, hrest⟩ := hpass.exists_of_append
  have hless : before.length < limits.of (Entry.resource α) := by
    rw [List.length_append, List.length_cons] at hroom
    omega
  cases hrest with
  | @cons _ _ _ c₁ _ hrun hlt hafter =>
    refine ⟨c₁, (run_decode_iff hd).2 ⟨.error _, ?_, rfl⟩, hafter⟩
    exact .repeated ⟨hbefore, Nat.le_of_lt hless, hdistinct⟩ hless hrun htaken

/-- A set stops where a sequence of different keys stops. -/
theorem run_decode_of_stop (hd : (Record.decode limits : Decoder α).Consumes)
    (hpass : Pass (Record.decode limits) c as c₀) (hdistinct : (as.map Keyed.key).Nodup)
    (hstop : Stop (limits.of (Entry.resource α)) (Sequence.overfull α limits)
      (Record.decode limits : Decoder α) as.length c₀ e c') :
    (decode limits : Decoder (KeyedSet α)).run c = (.error e, c') := by
  refine (run_decode_iff hd).2 ⟨.error e, ?_, rfl⟩
  cases hstop with
  | full hmore hfull => exact .overfull ⟨hpass, Nat.le_of_eq hfull, hdistinct⟩ hmore hfull
  | unread hmore hroom hrun =>
    exact .failed ⟨hpass, Nat.le_of_lt hroom, hdistinct⟩ hmore hroom hrun

theorem get?_ofList_of_mem (hdistinct : (as.map Keyed.key).Nodup) {a : α} (ha : a ∈ as) :
    (ofList as).get? (Keyed.key a) = some a := by
  rw [(wellKeyed_ofList as).get?_eq_some_iff, (toList_ofList_perm hdistinct).mem_iff]
  exact ⟨ha, rfl⟩

theorem agreesWithList (hd : (Record.decode limits : Decoder α).Consumes) :
    AgreesWithList α limits where
  ok_iff := by
    intro c c' s
    rw [run_decode_ok_iff hd]
    constructor
    · rintro ⟨as, ⟨hpass, hroom, hdistinct⟩, hend, rfl⟩
      exact ⟨as, hpass.run_many hend hroom, hdistinct, rfl⟩
    · rintro ⟨as, hrun, hdistinct, rfl⟩
      obtain ⟨hpass, hend, hroom⟩ := (run_many_ok_iff hd).1 hrun
      exact ⟨as, ⟨hpass, hroom, hdistinct⟩, hend, rfl⟩
  whole := by
    intro c c' as _ hdistinct
    have hperm := toList_ofList_perm hdistinct
    refine ⟨hperm, ?_, fun a => get?_ofList_of_mem hdistinct⟩
    rw [← hperm.length_eq, toList, List.length_map, size]
  repeated := by
    intro c c' as hrun hrepeated
    obtain ⟨hpass, -, hroom⟩ := (run_many_ok_iff hd).1 hrun
    rcases nodup_or_firstRepeat as with hdistinct | ⟨before, a, after, hfirst⟩
    · exact absurd hdistinct hrepeated
    · obtain ⟨c₁, hset, hafter⟩ := run_decode_of_firstRepeat hd hpass hroom hfirst
      exact ⟨before, a, after, c₁, hfirst, hset, hafter⟩
  failed := by
    intro c c' e hrun
    obtain ⟨as, c₀, hpass, hstop⟩ := (run_many_error_iff hd).1 hrun
    have hroom : as.length ≤ limits.of (Entry.resource α) := by
      cases hstop with
      | full hmore hfull => exact Nat.le_of_eq hfull
      | unread hmore hroom hrun => exact Nat.le_of_lt hroom
    refine ⟨as, c₀, hpass, hstop, ?_⟩
    rcases nodup_or_firstRepeat as with hdistinct | ⟨before, a, after, hfirst⟩
    · exact .inl ⟨hdistinct, run_decode_of_stop hd hpass hdistinct hstop⟩
    · obtain ⟨c₁, hset, hafter⟩ := run_decode_of_firstRepeat hd hpass hroom hfirst
      exact .inr ⟨before, a, after, c₁, hfirst, hset, hafter⟩

end KeyedSet

/-- Sets of actions, instructions and match fields are read as sequences of them are. -/
theorem sets_agree_with_lists (limits : Limits) : AgreesWithList Action limits
    ∧ AgreesWithList Instruction limits ∧ AgreesWithList Field limits :=
  ⟨KeyedSet.agreesWithList (Action.consumes limits),
    KeyedSet.agreesWithList (Instruction.consumes limits),
    KeyedSet.agreesWithList (Field.consumes limits)⟩

/-- A sequence may set the time to live twice, a set may not. -/
example :
    let bs : Octets := [0, 23, 0, 8, 64, 0, 0, 0, 0, 18, 0, 8, 0, 0, 0, 0, 0, 23, 0, 8, 32, 0, 0, 0]
    ((Sequence.decode .standard).run (.start bs)).1
        = .ok [Action.setNwTtl 64, .popVlan, .setNwTtl 32]
      ∧ ((KeyedSet.decode .standard : Decoder (KeyedSet Action)).run (.start bs)).1
        = .error (.duplicateKey (Keyed.container Action) (Action.setNwTtl 32).key) :=
  ⟨rfl, rfl⟩

end OpenFlow
