import Mathlib.Data.List.Sort
import OpenFlow.Proofs.KeyedSet.RoundTrip

set_option autoImplicit false

/-! # Sets as maps

A set is determined by the entry that it has under each key (`KeyedSet.ext_get?`), so what an
operation does to a set is said by what becomes of `KeyedSet.get?`. -/

namespace OpenFlow.KeyedSet

variable {α : Type}

/-! ## Slots and keys -/

theorem nodup_keys {slots : List (Nat × α)} (h : (slots.map Prod.fst).Pairwise (· < ·)) :
    (slots.map Prod.fst).Nodup :=
  h.imp Nat.ne_of_lt

theorem lookup_cons_eq_ite (key k : Nat) (a : α) (slots : List (Nat × α)) :
    ((k, a) :: slots).lookup key = if key = k then some a else slots.lookup key := by
  by_cases h : key = k
  · subst h
    rw [List.lookup_cons_self, if_pos rfl]
  · rw [List.lookup_cons, beq_false_of_ne h, if_neg h]

theorem mem_iff_lookup {slots : List (Nat × α)} (h : (slots.map Prod.fst).Nodup) {key : Nat}
    {a : α} : (key, a) ∈ slots ↔ slots.lookup key = some a := by
  induction slots with
  | nil => simp
  | cons slot slots ih =>
    obtain ⟨k, b⟩ := slot
    rw [List.map_cons, List.nodup_cons] at h
    obtain ⟨hk, hs⟩ := h
    rw [lookup_cons_eq_ite, List.mem_cons]
    by_cases hkey : key = k
    · subst hkey
      -- the key does not come again
      have hout : (key, a) ∉ slots := fun hmem =>
        hk (List.mem_map.2 ⟨(key, a), hmem, rfl⟩)
      simp [hout, eq_comm]
    · simp [hkey, ih hs]

/-- The slots of a set are the keys that are taken, with what is under them. -/
theorem mem_slots_iff {s : KeyedSet α} {key : Nat} {a : α} :
    (key, a) ∈ s.slots ↔ s.get? key = some a :=
  mem_iff_lookup (nodup_keys s.ascending)

theorem mem_keys_iff {s : KeyedSet α} {key : Nat} : key ∈ s.keys ↔ ∃ a, s.get? key = some a := by
  constructor
  · intro h
    obtain ⟨⟨k, a⟩, hslot, rfl⟩ := List.mem_map.1 h
    exact ⟨a, mem_slots_iff.1 hslot⟩
  · rintro ⟨a, h⟩
    exact List.mem_map_of_mem (mem_slots_iff.2 h)

/-- Two sets with the same entry under each key are one. -/
theorem ext_get? {s t : KeyedSet α} (h : ∀ key, s.get? key = t.get? key) : s = t := by
  have hlt : ∀ u : KeyedSet α, u.slots.Pairwise (fun a b => a.1 < b.1) := fun u =>
    List.pairwise_map.1 u.ascending
  refine eq_of_slots_eq (List.Perm.eq_of_pairwise ?_ (hlt s) (hlt t) ?_)
  · intro a b _ _ hab hba
    exact absurd hab (Nat.lt_asymm hba)
  · refine (List.perm_ext_iff_of_nodup ?_ ?_).2 ?_
    · exact (nodup_keys s.ascending).of_map
    · exact (nodup_keys t.ascending).of_map
    · rintro ⟨key, a⟩
      rw [mem_slots_iff, mem_slots_iff, h]

/-! ## What operations do under a key -/

@[simp] theorem get?_empty (key : Nat) : (empty : KeyedSet α).get? key = none := rfl

theorem lookup_store {key k : Nat} {a : α} {slots : List (Nat × α)} :
    (store key a slots).lookup k = if k = key then some a else slots.lookup k := by
  induction slots with
  | nil => rw [store, lookup_cons_eq_ite]
  | cons slot slots ih =>
    obtain ⟨k', b⟩ := slot
    rw [store, lookup_cons_eq_ite]
    split
    · rw [lookup_cons_eq_ite, lookup_cons_eq_ite]
    · split
      · rename_i heq
        subst heq
        rw [lookup_cons_eq_ite]
        split <;> rfl
      · rename_i hne
        rw [lookup_cons_eq_ite, ih]
        -- the keys `k'` and `key` differ, so it does not matter which is asked about first
        by_cases hk : k = k'
        · subst hk
          rw [if_pos rfl, if_neg (Ne.symm hne), if_pos rfl]
        · rw [if_neg hk, if_neg hk]

@[simp] theorem get?_put (s : KeyedSet α) (key k : Nat) (a : α) :
    (s.put key a).get? k = if k = key then some a else s.get? k :=
  lookup_store

theorem get?_filterSlots (s : KeyedSet α) (p : Nat × α → Bool) (key : Nat) :
    (s.filterSlots p).get? key = (s.get? key).filter fun a => p (key, a) := by
  refine Option.ext fun a => ?_
  rw [← mem_slots_iff, Option.filter_eq_some_iff, ← mem_slots_iff]
  exact List.mem_filter

theorem get?_remove (s : KeyedSet α) (key k : Nat) :
    (s.remove key).2.get? k = if k = key then none else s.get? k := by
  have hfilter := get?_filterSlots s (·.1 != key) k
  rw [remove, hfilter]
  by_cases h : k = key <;> cases s.get? k <;> simp [h, Option.filter]

theorem get?_retain (s : KeyedSet α) (p : α → Bool) (key : Nat) :
    (s.retain p).get? key = (s.get? key).filter p :=
  get?_filterSlots s (p ·.2) key

/-! ## What operations do with the keys of entries -/

section Keyed

variable [Keyed α]

theorem insert_of_free {s : KeyedSet α} {a : α} (h : s.get? (Keyed.key a) = none) :
    s.insert a = ((a, true), s.put (Keyed.key a) a) := by
  unfold insert
  rw [h]

theorem insert_of_taken {s : KeyedSet α} {a old : α} (h : s.get? (Keyed.key a) = some old) :
    s.insert a = ((old, false), s) := by
  unfold insert
  rw [h]

theorem extend_cons (s : KeyedSet α) (a : α) (as : List α) :
    s.extend (a :: as) = (s.insert a).2.extend as := rfl

theorem get?_insert (s : KeyedSet α) (a : α) (key : Nat) :
    (s.insert a).2.get? key
      = (s.get? key).or (if key = Keyed.key a then some a else none) := by
  cases hkey : s.get? (Keyed.key a) with
  | none =>
    rw [insert_of_free hkey, get?_put]
    by_cases h : key = Keyed.key a
    · rw [if_pos h, if_pos h, h, hkey]
      rfl
    · rw [if_neg h, if_neg h, Option.or_none]
  | some old =>
    rw [insert_of_taken hkey]
    by_cases h : key = Keyed.key a
    · rw [if_pos h, h, hkey]
      rfl
    · rw [if_neg h, Option.or_none]

/-- Of the entries that come in under a key that is free, the first stays. -/
theorem get?_extend (s : KeyedSet α) (as : List α) (key : Nat) :
    (s.extend as).get? key = (s.get? key).or (as.find? fun a => key == Keyed.key a) := by
  induction as generalizing s with
  | nil => exact Option.or_none.symm
  | cons a as ih =>
    rw [extend_cons, ih, get?_insert, Option.or_assoc, List.find?_cons]
    by_cases h : key = Keyed.key a
    · subst h
      rw [if_pos rfl, beq_self_eq_true]
      rfl
    · rw [if_neg h, beq_false_of_ne h]
      rfl

/-- A well-keyed set has an entry under a key exactly if the entry is in it and has that key. -/
theorem WellKeyed.get?_eq_some_iff {s : KeyedSet α} (h : s.WellKeyed) {key : Nat} {a : α} :
    s.get? key = some a ↔ a ∈ s.toList ∧ Keyed.key a = key := by
  constructor
  · intro hget
    have hslot := mem_slots_iff.2 hget
    exact ⟨List.mem_map_of_mem hslot, (h _ hslot).symm⟩
  · rintro ⟨hmem, rfl⟩
    obtain ⟨⟨key, b⟩, hslot, rfl⟩ := List.mem_map.1 hmem
    rw [← h _ hslot]
    exact mem_slots_iff.1 hslot

/-- The entry under a key is the first of that key. -/
theorem WellKeyed.find?_toList {s : KeyedSet α} (h : s.WellKeyed) (key : Nat) :
    (s.toList.find? fun a => key == Keyed.key a) = s.get? key := by
  have hslots : ∀ slot ∈ s.slots, slot.1 = Keyed.key slot.2 := h
  show (s.slots.map Prod.snd).find? _ = s.slots.lookup key
  generalize s.slots = slots at hslots
  induction slots with
  | nil => rfl
  | cons slot slots ih =>
    obtain ⟨k, a⟩ := slot
    obtain rfl : k = Keyed.key a := hslots (k, a) List.mem_cons_self
    rw [List.map_cons, List.find?_cons, lookup_cons_eq_ite,
      ih fun slot hslot => hslots slot (List.mem_cons_of_mem _ hslot)]
    by_cases hkey : key = Keyed.key a
    · rw [if_pos hkey, beq_iff_eq.2 hkey]
    · rw [if_neg hkey, beq_false_of_ne hkey]

/-- The entries of a well-keyed set stand in the order of their own keys. -/
theorem WellKeyed.pairwise_toList {s : KeyedSet α} (h : s.WellKeyed) :
    s.toList.Pairwise fun a b => Keyed.key a < Keyed.key b := by
  refine List.pairwise_map.2 ((List.pairwise_map.1 s.ascending).imp_of_mem ?_)
  intro a b ha hb hlt
  rwa [← h a ha, ← h b hb]

/-- Keys differ, so there are no more entries than there are keys that entries can have. -/
theorem WellKeyed.size_le {s : KeyedSet α} (h : s.WellKeyed) (keys : List Nat)
    (hkeys : ∀ a : α, Keyed.key a ∈ keys) : s.size ≤ keys.length := by
  have hsubset : s.keys ⊆ keys := by
    intro key hkey
    obtain ⟨slot, hslot, rfl⟩ := List.mem_map.1 hkey
    rw [h slot hslot]
    exact hkeys slot.2
  have hle := (nodup_keys s.ascending).length_le_of_subset hsubset
  rwa [List.length_map] at hle

theorem wellKeyed_ofList (as : List α) : (ofList as).WellKeyed := wellKeyed_empty.extend as

/-- The set of the entries of a well-keyed set is that set. -/
theorem WellKeyed.ofList_toList {s : KeyedSet α} (h : s.WellKeyed) : ofList s.toList = s := by
  refine ext_get? fun key => ?_
  rw [ofList, get?_extend, get?_empty, Option.none_or, h.find?_toList]

end Keyed

end OpenFlow.KeyedSet
