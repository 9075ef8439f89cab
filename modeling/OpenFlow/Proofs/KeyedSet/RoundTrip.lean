import OpenFlow.Proofs.KeyedSet.Runs
import OpenFlow.Proofs.Record

set_option autoImplicit false

/-! # Sets are read back

A set is written in the order of its keys, so when it is read every entry goes to the end of those
before it and finds its key free (`KeyedSet.walk_decodeEntry`). A set whose entries stand under
their own keys is therefore read back as it was, keys included (`KeyedSet.carriesAlone`). -/

namespace OpenFlow.KeyedSet

variable {α : Type}

theorem eq_of_slots_eq {s t : KeyedSet α} (h : s.slots = t.slots) : s = t := by
  cases s
  cases t
  exact (KeyedSet.mk.injEq ..).mpr h

/-- An entry of a greater key than all the others goes to the end. -/
theorem store_of_greater {key : Nat} {slots : List (Nat × α)} (a : α)
    (h : ∀ slot ∈ slots, slot.1 < key) : store key a slots = slots ++ [(key, a)] := by
  induction slots with
  | nil => rfl
  | cons slot slots ih =>
    obtain ⟨k, b⟩ := slot
    have hk : k < key := h (k, b) List.mem_cons_self
    rw [store, if_neg (Nat.not_lt.2 (Nat.le_of_lt hk)), if_neg (Nat.ne_of_gt hk),
      ih fun slot hslot => h slot (List.mem_cons_of_mem _ hslot)]
    rfl

/-- A key that is greater than all the others is free. -/
theorem get?_of_greater {s : KeyedSet α} {key : Nat} (h : ∀ slot ∈ s.slots, slot.1 < key) :
    s.get? key = none := by
  refine List.lookup_eq_none_iff.2 fun slot hslot => ?_
  exact bne_iff_ne.2 (Nat.ne_of_gt (h slot hslot))

/-- The slots before a slot have lesser keys. -/
theorem lt_of_slots_eq {t : KeyedSet α} {before after : List (Nat × α)} {key : Nat} {a : α}
    (h : t.slots = before ++ (key, a) :: after) : ∀ slot ∈ before, slot.1 < key := by
  intro slot hslot
  have hascending := t.ascending
  rw [h, List.map_append, List.pairwise_append] at hascending
  exact hascending.2.2 slot.1 (List.mem_map_of_mem hslot) key List.mem_cons_self

section Keyed

variable [Keyed α]

/-- Reading the entries `after` into a set that holds those before them makes the whole set. -/
theorem walk_decodeEntry {limits : Limits} {octets : α → Octets} {t : KeyedSet α}
    (ht : t.WellKeyed)
    (hreads : ∀ a ∈ t.toList, (Record.decode limits : Decoder α).Reads (octets a) a)
    (hpos : ∀ a ∈ t.toList, octets a ≠ []) (tail : Octets) (after : List (Nat × α)) :
    ∀ (s : KeyedSet α) (pos : Nat), t.slots = s.slots ++ after →
      Decoder.Walk (decodeEntry limits) after.length s
        ⟨pos, (after.map Prod.snd).flatMap octets ++ tail⟩ t
        ⟨pos + ((after.map Prod.snd).flatMap octets).length, tail⟩ := by
  induction after with
  | nil =>
    intro s pos hslots
    rw [List.append_nil] at hslots
    obtain rfl : t = s := eq_of_slots_eq hslots
    exact .nil t _
  | cons slot after ih =>
    intro s pos hslots
    obtain ⟨key, a⟩ := slot
    have hmem : (key, a) ∈ t.slots := by
      rw [hslots]
      exact List.mem_append_right _ List.mem_cons_self
    have ha : a ∈ t.toList := List.mem_map_of_mem hmem
    obtain rfl : key = Keyed.key a := ht (key, a) hmem
    -- the next entry comes after all that are in the set already
    have hgreater : ∀ slot ∈ s.slots, slot.1 < Keyed.key a := lt_of_slots_eq hslots
    have hput : (s.put (Keyed.key a) a).slots = s.slots ++ [(Keyed.key a, a)] :=
      store_of_greater a hgreater
    have hrest := ih (s.put (Keyed.key a) a) (pos + (octets a).length) (by
      rw [hput, hslots, List.append_assoc]
      rfl)
    have hrun := hreads a ha ((after.map Prod.snd).flatMap octets ++ tail) pos
    -- its octets come first, so reading it moves the cursor
    have hlength := List.length_pos_iff.2 (hpos a ha)
    rw [List.map_cons, List.flatMap_cons, List.append_assoc, List.length_append, ← Nat.add_assoc]
    refine .cons (run_decodeEntry_iff.2 ⟨a, hrun, get?_of_greater hgreater, rfl⟩) ?_ hrest
    simp only [Cursor.remaining, List.length_append]
    omega

/-- A set whose entries are carried and stand under their own keys is carried. -/
theorem carriesAlone {limits : Limits} {octets : α → Octets} {s : KeyedSet α} (hs : s.WellKeyed)
    (h : ∀ a ∈ s.toList, Carries limits (octets a) a) (hpos : ∀ a ∈ s.toList, octets a ≠ [])
    (hbound : s.size ≤ limits.of (Entry.resource α)) :
    CarriesAlone limits (s.toList.flatMap octets) s := by
  refine ⟨?_, ?_, ?_⟩
  · exact Encoding.writes_concat fun a ha => (h a ha).writes
  · exact Sequence.length_flatMap fun a ha => (h a ha).length_eq
  · intro pos
    have hwalk := walk_decodeEntry hs (fun a ha => (h a ha).reads) hpos [] s.slots empty pos rfl
    exact (Decoder.LoopEnd.finished hwalk rfl hbound).run_eq

end Keyed

end OpenFlow.KeyedSet
