import OpenFlow.KeyedSet
import OpenFlow.Proofs.Octets.Walk

set_option autoImplicit false

/-! # Sets that were built step by step

`SetStep` is everything that changes a set, reading one included. What is so of each entry under its
own key, and of others of its kind under that key, is so in each slot of a set that was built by any
run of steps (`KeyedSet.eachSlot_run`).

An entry that is put in place of another of its kind stays under the key of the other, so a set may
come to hold an entry under a key that is not its own. Where kinds decide keys this cannot happen:
each entry of a set that was built by any run of steps stands under its own key
(`KeyedSet.wellKeyed_run`). -/

namespace OpenFlow

/-- One change of a set. -/
inductive SetStep (α : Type) where
  | insert (a : α)
  | assign (a : α)
  | insertOrAssign (a : α)
  | remove (key : Nat)
  | eraseFirst (p : α → Bool)
  | retain (p : α → Bool)
  /-- Puts an entry in place of the first one of its kind. -/
  | replace (a : α)
  | extend (as : List α)
  | clear
  /-- Reads a set, which takes the place of the one there was if reading succeeds. -/
  | read (limits : Limits) (bs : Octets)

namespace KeyedSet

variable {α : Type}

/-! ## Changing slots -/

theorem mem_store {key : Nat} {a : α} {slots : List (Nat × α)} {slot : Nat × α}
    (h : slot ∈ store key a slots) : slot = (key, a) ∨ slot ∈ slots := by
  induction slots with
  | nil => exact Or.inl (List.mem_singleton.1 h)
  | cons first slots ih =>
    obtain ⟨k, b⟩ := first
    rw [store] at h
    split at h
    · exact List.mem_cons.1 h
    · split at h
      · rcases List.mem_cons.1 h with rfl | h
        · exact Or.inl rfl
        · exact Or.inr (List.mem_cons_of_mem _ h)
      · rcases List.mem_cons.1 h with rfl | h
        · exact Or.inr List.mem_cons_self
        · exact (ih h).imp_right (List.mem_cons_of_mem _)

theorem mem_replaceSlot {p : α → Bool} {a : α} {slots : List (Nat × α)} {slot : Nat × α}
    (h : slot ∈ replaceSlot p a slots) :
    slot ∈ slots ∨ (slot.2 = a ∧ ∃ b, p b = true ∧ (slot.1, b) ∈ slots) := by
  induction slots with
  | nil => exact Or.inl h
  | cons first slots ih =>
    obtain ⟨k, b⟩ := first
    rw [replaceSlot] at h
    split at h
    · rename_i hp
      rcases List.mem_cons.1 h with rfl | h
      · exact Or.inr ⟨rfl, b, hp, List.mem_cons_self⟩
      · exact Or.inl (List.mem_cons_of_mem _ h)
    · rcases List.mem_cons.1 h with rfl | h
      · exact Or.inl List.mem_cons_self
      · rcases ih h with h | ⟨ha, b', hp, hb⟩
        · exact Or.inl (List.mem_cons_of_mem _ h)
        · exact Or.inr ⟨ha, b', hp, List.mem_cons_of_mem _ hb⟩

/-! ## What each slot keeps -/

/-- What `P` says of a key and an entry is so in each slot. -/
def EachSlot (P : Nat → α → Prop) (s : KeyedSet α) : Prop := ∀ slot ∈ s.slots, P slot.1 slot.2

section EachSlot

variable {P : Nat → α → Prop} {s : KeyedSet α}

theorem eachSlot_empty : (empty : KeyedSet α).EachSlot P :=
  fun _ hslot => absurd hslot List.not_mem_nil

theorem EachSlot.put (h : s.EachSlot P) {key : Nat} {a : α} (ha : P key a) :
    (s.put key a).EachSlot P := by
  intro slot hslot
  rcases mem_store hslot with rfl | hslot
  · exact ha
  · exact h slot hslot

theorem EachSlot.filterSlots (h : s.EachSlot P) (p : Nat × α → Bool) :
    (s.filterSlots p).EachSlot P :=
  fun slot hslot => h slot (List.mem_filter.1 hslot).1

theorem EachSlot.eraseFirst (h : s.EachSlot P) (p : α → Bool) :
    (s.eraseFirst p).2.EachSlot P := by
  unfold KeyedSet.eraseFirst
  split
  · exact h.filterSlots _
  · exact h

theorem EachSlot.replaceFirst (h : s.EachSlot P) {p : α → Bool} {a : α}
    (hp : ∀ key b, p b = true → P key b → P key a) : (s.replaceFirst p a).2.EachSlot P := by
  intro slot hslot
  rcases mem_replaceSlot hslot with hslot | ⟨ha, b, hb, hslot⟩
  · exact h slot hslot
  · rw [ha]
    exact hp slot.1 b hb (h (slot.1, b) hslot)

variable [Keyed α]

theorem EachSlot.insert (h : s.EachSlot P) {a : α} (ha : P (Keyed.key a) a) :
    (s.insert a).2.EachSlot P := by
  unfold KeyedSet.insert
  split
  · exact h
  · exact h.put ha

theorem EachSlot.assign (h : s.EachSlot P) {a : α} (ha : P (Keyed.key a) a) :
    (s.assign a).2.EachSlot P := by
  unfold KeyedSet.assign
  split
  · exact h.put ha
  · exact h

theorem EachSlot.extend (h : s.EachSlot P) (hkey : ∀ a : α, P (Keyed.key a) a) (as : List α) :
    (s.extend as).EachSlot P := by
  unfold KeyedSet.extend
  induction as generalizing s with
  | nil => exact h
  | cons a as ih => exact ih (h.insert (hkey a))

/-- An entry that is read goes under its key, which has to be free. -/
theorem run_decodeEntry_iff {limits : Limits} {s t : KeyedSet α} {c c' : Cursor} :
    (decodeEntry limits s).run c = (.ok t, c') ↔
      ∃ a, (Record.decode limits : Decoder α).run c = (.ok a, c') ∧ s.get? (Keyed.key a) = none
        ∧ s.put (Keyed.key a) a = t := by
  unfold decodeEntry
  rcases hrun : (Record.decode limits : Decoder α).run c with ⟨e | a, c₁⟩
  · rw [Decoder.run_bind_error hrun]
    simp
  · rw [Decoder.run_bind_ok hrun]
    cases hget : s.get? (Keyed.key a) with
    | some old =>
      simp only [KeyedSet.insert, hget, Decoder.run_fail, Prod.mk.injEq, reduceCtorEq,
        false_and, Except.ok.injEq, false_iff]
      rintro ⟨a', ⟨rfl, -⟩, hfree, -⟩
      rw [hget] at hfree
      exact absurd hfree (by simp)
    | none =>
      simp only [KeyedSet.insert, hget, Decoder.run_pure, Prod.mk.injEq, Except.ok.injEq]
      constructor
      · rintro ⟨ht, hc⟩
        exact ⟨a, ⟨rfl, hc⟩, hget, ht⟩
      · rintro ⟨a', ⟨rfl, hc⟩, -, ht⟩
        exact ⟨ht, hc⟩

theorem eachSlot_of_decode (hkey : ∀ a : α, P (Keyed.key a) a) {limits : Limits} {t : KeyedSet α}
    {c c' : Cursor} (h : (decode limits).run c = (.ok t, c')) : t.EachSlot P := by
  refine Decoder.untilEmptyIn_invariant ?_ c.remaining _ eachSlot_empty h
  intro s s' c c' hs hrun
  obtain ⟨a, -, -, rfl⟩ := run_decodeEntry_iff.1 hrun
  exact hs.put (hkey a)

end EachSlot

/-! ## Entries stay under their keys -/

variable [Keyed α]

/-- Each entry is stored under its own key. -/
def WellKeyed (s : KeyedSet α) : Prop := ∀ slot ∈ s.slots, slot.1 = Keyed.key slot.2

/-- The key is the entry's own. -/
abbrev OwnKey (key : Nat) (a : α) : Prop := key = Keyed.key a

theorem wellKeyed_empty : (empty : KeyedSet α).WellKeyed := eachSlot_empty (P := OwnKey)

theorem WellKeyed.put {s : KeyedSet α} (h : s.WellKeyed) (a : α) :
    (s.put (Keyed.key a) a).WellKeyed :=
  EachSlot.put (P := OwnKey) h rfl

theorem WellKeyed.filterSlots {s : KeyedSet α} (h : s.WellKeyed) (p : Nat × α → Bool) :
    (s.filterSlots p).WellKeyed :=
  EachSlot.filterSlots (P := OwnKey) h p

theorem WellKeyed.insert {s : KeyedSet α} (h : s.WellKeyed) (a : α) :
    (s.insert a).2.WellKeyed :=
  EachSlot.insert (P := OwnKey) h rfl

theorem WellKeyed.assign {s : KeyedSet α} (h : s.WellKeyed) (a : α) :
    (s.assign a).2.WellKeyed :=
  EachSlot.assign (P := OwnKey) h rfl

theorem WellKeyed.eraseFirst {s : KeyedSet α} (h : s.WellKeyed) (p : α → Bool) :
    (s.eraseFirst p).2.WellKeyed :=
  EachSlot.eraseFirst (P := OwnKey) h p

theorem WellKeyed.extend {s : KeyedSet α} (h : s.WellKeyed) (as : List α) :
    (s.extend as).WellKeyed :=
  EachSlot.extend (P := OwnKey) h (fun _ => rfl) as

theorem wellKeyed_of_decode {limits : Limits} {t : KeyedSet α} {c c' : Cursor}
    (h : (decode limits).run c = (.ok t, c')) : t.WellKeyed :=
  eachSlot_of_decode (P := OwnKey) (fun _ => rfl) h

/-! ## Steps and runs -/

variable [Kinded α]

/-- The set after one change. -/
def apply (s : KeyedSet α) : SetStep α → KeyedSet α
  | .insert a => (s.insert a).2
  | .assign a => (s.assign a).2
  | .insertOrAssign a => (s.insertOrAssign a).2
  | .remove key => (s.remove key).2
  | .eraseFirst p => (s.eraseFirst p).2
  | .retain p => s.retain p
  | .replace a => (s.replaceFirst (fun b => Kinded.alike (Kinded.kind b) (Kinded.kind a)) a).2
  | .extend as => s.extend as
  | .clear => empty
  | .read limits bs =>
    match (decode limits).run (.start bs) with
    | (.ok t, _) => t
    | (.error _, _) => s

/-- The set that changes make of the empty one. -/
def run (steps : List (SetStep α)) : KeyedSet α := steps.foldl apply empty

/-- Entries of one kind have one key. -/
def KindsDecideKeys (α : Type) [Keyed α] [Kinded α] : Prop :=
  ∀ a b : α, Kinded.alike (Kinded.kind a) (Kinded.kind b) = true → Keyed.key a = Keyed.key b

section EachSlot

variable {P : Nat → α → Prop} (hkey : ∀ a : α, P (Keyed.key a) a)

include hkey

/-- One step keeps what holds of an entry under its own key, as long as replacing does. -/
theorem EachSlot.apply_of_replace {s : KeyedSet α} (h : s.EachSlot P) (step : SetStep α)
    (hreplace : ∀ a, step = .replace a → (s.apply (.replace a)).EachSlot P) :
    (s.apply step).EachSlot P := by
  cases step with
  | insert a => exact h.insert (hkey a)
  | assign a => exact h.assign (hkey a)
  | insertOrAssign a => exact h.put (hkey a)
  | remove key => exact h.filterSlots _
  | eraseFirst p => exact h.eraseFirst p
  | retain p => exact h.filterSlots _
  | replace a => exact hreplace a rfl
  | extend as => exact h.extend hkey as
  | clear => exact eachSlot_empty
  | read limits bs =>
    show EachSlot P (match (decode limits).run (.start bs) with
      | (.ok t, _) => t
      | (.error _, _) => s)
    -- a failed reading leaves the set as it was
    rcases hrun : (decode limits : Decoder (KeyedSet α)).run (.start bs) with ⟨e | t, c⟩
    · exact h
    · exact eachSlot_of_decode hkey hrun

variable (hkinds : ∀ key (a b : α), Kinded.alike (Kinded.kind b) (Kinded.kind a) = true →
    P key b → P key a)

include hkinds

/-- So it does what also goes over to others of its kind under that key. -/
theorem EachSlot.apply {s : KeyedSet α} (h : s.EachSlot P) (step : SetStep α) :
    (s.apply step).EachSlot P :=
  h.apply_of_replace hkey step fun a _ => h.replaceFirst fun key b hb => hkinds key a b hb

/-- Every run of steps does. -/
theorem eachSlot_run (steps : List (SetStep α)) : (run steps).EachSlot P := by
  suffices hfold : ∀ s : KeyedSet α, s.EachSlot P → (steps.foldl apply s).EachSlot P by
    exact hfold empty eachSlot_empty
  induction steps with
  | nil =>
    intro s h
    exact h
  | cons step steps ih =>
    intro s h
    exact ih (s.apply step) (h.apply hkey hkinds step)

end EachSlot

/-- One step keeps entries under their keys. -/
theorem WellKeyed.apply (hkinds : KindsDecideKeys α) {s : KeyedSet α} (h : s.WellKeyed)
    (step : SetStep α) : (s.apply step).WellKeyed :=
  EachSlot.apply (P := OwnKey) (fun _ => rfl) (fun _ a b hb hkey => hkey.trans (hkinds b a hb)) h
    step

/-- Every run of steps does. -/
theorem wellKeyed_run (hkinds : KindsDecideKeys α) (steps : List (SetStep α)) :
    (run steps).WellKeyed :=
  eachSlot_run (P := OwnKey) (fun _ => rfl) (fun _ a b hb hkey => hkey.trans (hkinds b a hb)) steps

end KeyedSet

end OpenFlow
