import OpenFlow.Sequence

set_option autoImplicit false

/-! # Sets of keyed records

A `KeyedSet` holds at most one entry under each key, in ascending order of keys, which is the order
on the wire. Entries are stored under the key that they have when they come in. An entry that is
replaced in place (`replaceFirst`) may get a key of its own that differs from the one it is stored
under; the set goes on by the latter.

Two sets are the same when each covers the other: an entry needs a counterpart that means the
same, unless it means the same as no entry. -/

namespace OpenFlow

/-- Entries in ascending order of the keys that they are stored under. -/
structure KeyedSet (α : Type) where
  slots : List (Nat × α)
  ascending : (slots.map Prod.fst).Pairwise (· < ·)

namespace KeyedSet

variable {α : Type}

instance [DecidableEq α] : DecidableEq (KeyedSet α) := fun s t =>
  decidable_of_iff (s.slots = t.slots) (by cases s; cases t; simp)

/-! ## Slots -/

/-- Stores `a` under `key`, in place of what was stored there. -/
def store (key : Nat) (a : α) : List (Nat × α) → List (Nat × α)
  | [] => [(key, a)]
  | (k, b) :: slots =>
    if key < k then (key, a) :: (k, b) :: slots
    else if key = k then (key, a) :: slots
    else (k, b) :: store key a slots

/-- Puts `a` in place of the first entry that `p` holds of. -/
def replaceSlot (p : α → Bool) (a : α) : List (Nat × α) → List (Nat × α)
  | [] => []
  | (k, b) :: slots => if p b then (k, a) :: slots else (k, b) :: replaceSlot p a slots

theorem mem_keys_store {key k : Nat} {a : α} {slots : List (Nat × α)} :
    k ∈ (store key a slots).map Prod.fst ↔ k = key ∨ k ∈ slots.map Prod.fst := by
  induction slots with
  | nil => simp [store]
  | cons slot slots ih =>
    obtain ⟨k', b⟩ := slot
    rw [store]
    split
    · simp
    · split
      · rename_i h
        simp [h]
      · simp only [List.map_cons, List.mem_cons, ih]
        exact or_left_comm

theorem ascending_store (key : Nat) (a : α) {slots : List (Nat × α)}
    (h : (slots.map Prod.fst).Pairwise (· < ·)) :
    ((store key a slots).map Prod.fst).Pairwise (· < ·) := by
  induction slots with
  | nil => simp [store]
  | cons slot slots ih =>
    obtain ⟨k, b⟩ := slot
    rw [List.map_cons, List.pairwise_cons] at h
    obtain ⟨hk, hs⟩ := h
    rw [store]
    split
    · rename_i hlt
      simp only [List.map_cons, List.pairwise_cons]
      exact ⟨fun k' hk' => (List.mem_cons.1 hk').elim (fun e => e ▸ hlt)
        (fun m => Nat.lt_trans hlt (hk k' m)), hk, hs⟩
    · split
      · rename_i heq
        simp only [List.map_cons, List.pairwise_cons]
        exact ⟨heq ▸ hk, hs⟩
      · simp only [List.map_cons, List.pairwise_cons]
        refine ⟨fun k' hk' => ?_, ih hs⟩
        rcases mem_keys_store.1 hk' with rfl | m
        · omega
        · exact hk k' m

@[simp] theorem keys_replaceSlot (p : α → Bool) (a : α) (slots : List (Nat × α)) :
    (replaceSlot p a slots).map Prod.fst = slots.map Prod.fst := by
  induction slots with
  | nil => rfl
  | cons slot slots ih =>
    obtain ⟨k, b⟩ := slot
    rw [replaceSlot]
    split <;> simp [ih]

/-! ## Looking -/

/-- The set without entries. -/
def empty : KeyedSet α := ⟨[], by simp⟩

/-- The keys, in ascending order. -/
def keys (s : KeyedSet α) : List Nat := s.slots.map Prod.fst

/-- The entries, in ascending order of their keys. -/
def toList (s : KeyedSet α) : List α := s.slots.map Prod.snd

/-- How many entries there are. -/
def size (s : KeyedSet α) : Nat := s.slots.length

/-- Whether there are no entries. -/
def isEmpty (s : KeyedSet α) : Bool := s.slots.isEmpty

/-- The entry under a key. -/
def get? (s : KeyedSet α) (key : Nat) : Option α := s.slots.lookup key

/-- Whether a key is taken. -/
def contains (s : KeyedSet α) (key : Nat) : Bool := (s.get? key).isSome

/-- The entry of the least key among those that `p` holds of. -/
def find? (s : KeyedSet α) (p : α → Bool) : Option α := s.toList.find? p

/-! ## Changing -/

/-- Stores `a` under `key`. -/
def put (s : KeyedSet α) (key : Nat) (a : α) : KeyedSet α :=
  ⟨store key a s.slots, ascending_store key a s.ascending⟩

/-- Keeps the slots that `p` holds of. -/
def filterSlots (s : KeyedSet α) (p : Nat × α → Bool) : KeyedSet α :=
  ⟨s.slots.filter p, s.ascending.sublist (List.filter_sublist.map Prod.fst)⟩

/-- Takes out the entry under a key. -/
def remove (s : KeyedSet α) (key : Nat) : Option α × KeyedSet α :=
  (s.get? key, s.filterSlots (·.1 != key))

/-- Keeps the entries that `p` holds of. -/
def retain (s : KeyedSet α) (p : α → Bool) : KeyedSet α := s.filterSlots (p ·.2)

/-- Takes out the entry of the least key among those that `p` holds of. -/
def eraseFirst (s : KeyedSet α) (p : α → Bool) : Option α × KeyedSet α :=
  match s.slots.find? (p ·.2) with
  | some (key, _) => s.remove key
  | none => (none, s)

/-- Puts `a` in place of the entry of the least key among those that `p` holds of, under the key
    of that entry, and answers it. -/
def replaceFirst (s : KeyedSet α) (p : α → Bool) (a : α) : Option α × KeyedSet α :=
  (s.find? p, ⟨replaceSlot p a s.slots, by rw [keys_replaceSlot]; exact s.ascending⟩)

section Keyed

variable [Keyed α]

/-- Stores an entry if its key is free. Answers the entry that now is under the key, and whether
    it is the new one. -/
def insert (s : KeyedSet α) (a : α) : (α × Bool) × KeyedSet α :=
  match s.get? (Keyed.key a) with
  | some old => ((old, false), s)
  | none => ((a, true), s.put (Keyed.key a) a)

/-- Puts an entry in place of the one under its key, which is answered; a free key stays free. -/
def assign (s : KeyedSet α) (a : α) : Option α × KeyedSet α :=
  match s.get? (Keyed.key a) with
  | some old => (some old, s.put (Keyed.key a) a)
  | none => (none, s)

/-- Stores an entry, and answers the one that it replaces. -/
def insertOrAssign (s : KeyedSet α) (a : α) : Option α × KeyedSet α :=
  (s.get? (Keyed.key a), s.put (Keyed.key a) a)

/-- Stores entries in order, each if its key is still free. -/
def extend (s : KeyedSet α) (as : List α) : KeyedSet α := as.foldl (fun s a => (s.insert a).2) s

/-- The set of a list's entries; the first of each key stays. -/
def ofList (as : List α) : KeyedSet α := empty.extend as

/-- The entry under a key, which must be taken. -/
def entryAt (s : KeyedSet α) (key : Nat) : Except LookupError α :=
  match s.get? key with
  | some a => .ok a
  | none => .error (.keyNotFound (Keyed.container α) key)

/-- The entry of the least key among those that `p` holds of, which must be there. -/
def entryOf (s : KeyedSet α) (p : α → Bool) : Except LookupError α :=
  match s.find? p with
  | some a => .ok a
  | none => .error (.entryNotFound (Keyed.container α))

/-- Each entry of `s` has a counterpart in `t` that means the same, or needs none. -/
def covers (s t : KeyedSet α) : Bool :=
  s.slots.all fun (key, a) =>
    match t.get? key with
    | some b => Entry.same a b
    | none => Keyed.vacuous a

/-- The sets mean the same. -/
def same (s t : KeyedSet α) : Bool := s.covers t && t.covers s

/-! ## Reading and writing -/

/-- Reads an entry into `s`, where its key must be free. -/
def decodeEntry (limits : Limits) (s : KeyedSet α) : Decoder (KeyedSet α) := do
  let a ← Record.decode limits
  match s.insert a with
  | ((_, true), s') => return s'
  | ((_, false), _) => Decoder.fail (.duplicateKey (Keyed.container α) (Keyed.key a))

/-- Reads entries until the octets run out; no two may have one key. -/
def decode (limits : Limits) : Decoder (KeyedSet α) :=
  Decoder.untilEmpty (limits.of (Entry.resource α)) (Sequence.overfull α limits)
    (decodeEntry limits) empty

/-- How many octets the entries occupy. -/
def length (s : KeyedSet α) : Nat := Sequence.length s.toList

instance : Record (KeyedSet α) where
  element := Record.element α
  decode := decode
  encode s := Sequence.encode s.toList
  length := length
  validate s := validateEach Record.validate s.toList

end Keyed

end KeyedSet

end OpenFlow
