import Mathlib.Algebra.GroupWithZero.Nat
import OpenFlow.Proofs.KeyedSet.Lookup

set_option autoImplicit false

/-! # Calls on a set

`SetCall` is what can be asked of a set, and `KeyedSet.call` what the set answers and what becomes
of it. (`SetStep` is about sets that are changed in place too, and forgets the answers.) A set is
more than what it has under each key: its keys ascend, each entry stands under its own key, and the
entries are all that there is to it (`KeyedSet.Sound`). Every run of calls keeps that
(`KeyedSet.sound_of_mem_calls`), and a call that comes to nothing changes nothing
(`KeyedSet.call_of_idle`). -/

namespace OpenFlow

/-- What can be asked of a set. -/
inductive SetCall (α : Type) [Kinded α] where
  /-- Starts again with the set of a list. -/
  | ofList (as : List α)
  | insert (a : α)
  | assign (a : α)
  | insertOrAssign (a : α)
  /-- Takes out the first entry of a kind. -/
  | erase (kind : Kinded.Kind α)
  | remove (key : Nat)
  /-- Keeps the entries that a predicate holds of. It is asked once about each, so that one that
      remembers what it was asked is one of these predicates too. -/
  | retain (p : α → Bool)
  | extend (as : List α)
  | clear
  /-- Starts again with the set that stands at a cursor, if one can be read there. -/
  | read (limits : Limits) (c : Cursor)

/-- What a call answers. -/
inductive SetAnswer (α : Type) where
  | done
  /-- The entry that is under the key now, and whether it is the one that came in. -/
  | stored (a : α) (isNew : Bool)
  /-- The entry that was replaced or taken out. -/
  | entry (old : Option α)
  /-- A set was read up to the cursor. -/
  | read (c : Cursor)
  /-- No set was read, and reading stopped at the cursor. -/
  | failed (e : DecodeError) (c : Cursor)

/-- A call whose answer says that there was nothing to do, or that it could not be done. -/
def SetCall.Idle {α : Type} [Kinded α] : SetCall α → SetAnswer α → Prop
  | .insert _, .stored _ isNew => isNew = false
  | .assign _, .entry old => old = none
  | .erase _, .entry old => old = none
  | .remove _, .entry old => old = none
  | .read _ _, .failed _ _ => True
  | _, _ => False

namespace KeyedSet

variable {α : Type}

section Keyed

variable [Keyed α] [Kinded α]

/-- Performs a call on a set. -/
def call (s : KeyedSet α) : SetCall α → SetAnswer α × KeyedSet α
  | .ofList as => (.done, ofList as)
  | .insert a =>
    let ((b, isNew), t) := s.insert a
    (.stored b isNew, t)
  | .assign a => (s.assign a).map .entry id
  | .insertOrAssign a => (s.insertOrAssign a).map .entry id
  | .erase kind => (s.eraseFirst fun a => Kinded.alike (Kinded.kind a) kind).map .entry id
  | .remove key => (s.remove key).map .entry id
  | .retain p => (.done, s.retain p)
  | .extend as => (.done, s.extend as)
  | .clear => (.done, empty)
  | .read limits c =>
    match (decode limits).run c with
    | (.ok t, c') => (.read c', t)
    | (.error e, c') => (.failed e c', s)

/-- The answers of calls on a set one after the other, and the set after each. -/
def calls (s : KeyedSet α) : List (SetCall α) → List (SetAnswer α × KeyedSet α)
  | [] => []
  | call :: rest => s.call call :: (s.call call).2.calls rest

end Keyed

/-! ## What single calls do -/

/-- `a` is the entry of the least key among those that `p` holds of, and `key` is that key. -/
structure IsFirst (s : KeyedSet α) (p : α → Bool) (key : Nat) (a : α) : Prop where
  under : s.get? key = some a
  holds : p a = true
  least : ∀ key' b, s.get? key' = some b → p b = true → key ≤ key'

theorem isFirst_of_find? {s : KeyedSet α} {p : α → Bool} {key : Nat} {a : α}
    (h : s.slots.find? (p ·.2) = some (key, a)) : s.IsFirst p key a := by
  obtain ⟨ha, before, after, hslots, hbefore⟩ := List.find?_eq_some_iff_append.1 h
  refine ⟨mem_slots_iff.1 (List.mem_of_find?_eq_some h), ha, fun key' b hb hp => ?_⟩
  have hmem : (key', b) ∈ s.slots := mem_slots_iff.2 hb
  rw [hslots, List.mem_append, List.mem_cons] at hmem
  rcases hmem with hmem | heq | hmem
  · -- `p` holds of no slot before
    simpa [hp] using hbefore _ hmem
  · rw [(Prod.mk.inj heq).1]
  · -- the slots after have greater keys
    have hlt := List.pairwise_map.1 s.ascending
    rw [hslots, List.pairwise_append, List.pairwise_cons] at hlt
    exact Nat.le_of_lt (hlt.2.1.1 _ hmem)

theorem IsFirst.find?_eq {s : KeyedSet α} {p : α → Bool} {key : Nat} {a : α}
    (h : s.IsFirst p key a) : s.slots.find? (p ·.2) = some (key, a) := by
  cases hfind : s.slots.find? (p ·.2) with
  | none => exact absurd h.holds (List.find?_eq_none.1 hfind _ (mem_slots_iff.2 h.under))
  | some slot =>
    obtain ⟨key', b⟩ := slot
    have h' : s.IsFirst p key' b := isFirst_of_find? hfind
    -- each of the two keys is the least
    obtain rfl : key = key' :=
      Nat.le_antisymm (h.least key' b h'.under h'.holds) (h'.least key a h.under h.holds)
    obtain rfl : a = b := Option.some.inj (h.under.symm.trans h'.under)
    rfl

theorem eraseFirst_of_isFirst {s : KeyedSet α} {p : α → Bool} {key : Nat} {a : α}
    (h : s.IsFirst p key a) : s.eraseFirst p = (some a, (s.remove key).2) := by
  unfold eraseFirst
  rw [h.find?_eq]
  show s.remove key = _
  rw [remove, h.under]

theorem eraseFirst_of_missing {s : KeyedSet α} {p : α → Bool}
    (hmissing : ∀ key a, s.get? key = some a → ¬ p a = true) : s.eraseFirst p = (none, s) := by
  have hfind : s.slots.find? (p ·.2) = none :=
    List.find?_eq_none.2 fun slot hslot => hmissing slot.1 slot.2 (mem_slots_iff.1 hslot)
  unfold eraseFirst
  rw [hfind]

theorem missing_or_isFirst (s : KeyedSet α) (p : α → Bool) :
    (∀ key a, s.get? key = some a → ¬ p a = true) ∨ ∃ key a, s.IsFirst p key a := by
  cases hfind : s.slots.find? (p ·.2) with
  | none => exact .inl fun key a h => List.find?_eq_none.1 hfind (key, a) (mem_slots_iff.2 h)
  | some slot => exact .inr ⟨slot.1, slot.2, isFirst_of_find? hfind⟩

/-- A key that is free may be taken out. -/
theorem remove_of_free {s : KeyedSet α} {key : Nat} (h : s.get? key = none) :
    (s.remove key).2 = s := by
  refine ext_get? fun k => ?_
  rw [get?_remove]
  split
  · rename_i heq
    rw [heq, h]
  · rfl

section Keyed

variable [Keyed α]

theorem assign_of_taken {s : KeyedSet α} {a old : α} (h : s.get? (Keyed.key a) = some old) :
    s.assign a = (some old, s.put (Keyed.key a) a) := by
  unfold assign
  rw [h]

theorem assign_of_free {s : KeyedSet α} {a : α} (h : s.get? (Keyed.key a) = none) :
    s.assign a = (none, s) := by
  unfold assign
  rw [h]

/-! ## What every call keeps -/

/-- The keys ascend, each entry stands under its own, and the list of the entries is all that there
    is to the set. -/
structure Sound (s : KeyedSet α) : Prop where
  keys_ascending : s.keys.Pairwise (· < ·)
  mem_keys : ∀ key, key ∈ s.keys ↔ ∃ a, s.get? key = some a
  key_eq : ∀ key a, s.get? key = some a → Keyed.key a = key
  entries : s.toList.map some = s.keys.map s.get?
  length_eq : s.length = (s.toList.map Record.length).sum
  ofList_toList : ofList s.toList = s

theorem WellKeyed.sound {s : KeyedSet α} (h : s.WellKeyed) : s.Sound where
  keys_ascending := s.ascending
  mem_keys _ := mem_keys_iff
  key_eq key a hget := (h (key, a) (mem_slots_iff.2 hget)).symm
  entries := by
    unfold toList keys
    rw [List.map_map, List.map_map]
    exact List.map_congr_left fun slot hslot => (mem_slots_iff.1 hslot).symm
  length_eq := by
    rw [List.sum_eq_foldr, List.foldr_map]
    rfl
  ofList_toList := h.ofList_toList

variable [Kinded α]

theorem WellKeyed.call {s : KeyedSet α} (h : s.WellKeyed) (c : SetCall α) :
    (s.call c).2.WellKeyed := by
  cases c with
  | ofList as => exact wellKeyed_ofList as
  | insert a => exact h.insert a
  | assign a => exact h.assign a
  | insertOrAssign a => exact h.put a
  | erase kind => exact WellKeyed.eraseFirst h fun a => Kinded.alike (Kinded.kind a) kind
  | remove key => exact h.filterSlots _
  | retain p => exact h.filterSlots _
  | extend as => exact h.extend as
  | clear => exact wellKeyed_empty
  | read limits c =>
    rcases hrun : (decode limits : Decoder (KeyedSet α)).run c with ⟨e | t, c'⟩
    · simp only [KeyedSet.call, hrun]
      exact h
    · simp only [KeyedSet.call, hrun]
      exact wellKeyed_of_decode hrun

theorem WellKeyed.of_mem_calls {s : KeyedSet α} (h : s.WellKeyed) (cs : List (SetCall α)) :
    ∀ step ∈ s.calls cs, step.2.WellKeyed := by
  induction cs generalizing s with
  | nil => exact List.forall_mem_nil _
  | cons c cs ih => exact List.forall_mem_cons.2 ⟨h.call c, ih (h.call c)⟩

theorem sound_of_mem_calls (cs : List (SetCall α)) :
    ∀ step ∈ (empty : KeyedSet α).calls cs, step.2.Sound :=
  fun step hstep => (wellKeyed_empty.of_mem_calls cs step hstep).sound

/-- A call that had nothing to do, or that could not be done, leaves the set as it was. -/
theorem call_of_idle {s : KeyedSet α} {c : SetCall α} (h : c.Idle (s.call c).1) :
    (s.call c).2 = s := by
  cases c with
  | insert a =>
    cases hkey : s.get? (Keyed.key a) with
    | none =>
      rw [call, insert_of_free hkey] at h
      cases h
    | some old => rw [call, insert_of_taken hkey]
  | assign a =>
    cases hkey : s.get? (Keyed.key a) with
    | none =>
      rw [call, assign_of_free hkey]
      rfl
    | some old =>
      rw [call, assign_of_taken hkey] at h
      cases h
  | erase kind =>
    rcases s.missing_or_isFirst fun a => Kinded.alike (Kinded.kind a) kind with
      hmissing | ⟨key, a, hfirst⟩
    · rw [call, eraseFirst_of_missing hmissing]
      rfl
    · rw [call, eraseFirst_of_isFirst hfirst] at h
      cases h
  | remove key => exact remove_of_free h
  | read limits c =>
    rcases hrun : (decode limits : Decoder (KeyedSet α)).run c with ⟨e | t, c'⟩
    · simp only [call, hrun]
    · simp only [call, hrun] at h
      cases h
  | ofList | insertOrAssign | retain | extend | clear => cases h

end Keyed

end KeyedSet

end OpenFlow
