import OpenFlow.Proofs.KeyedSet.Map
import OpenFlow.Proofs.Limits.Exceeding

set_option autoImplicit false

/-! # Replacing an entry in place

An entry that is put in place of the first one of its kind goes under the key of that one
(`KeyedSet.get?_replaceFirst`). A set can be relied on if its entries stand under their own keys:
they are found there, none is stored a second time, and the set is read back from its octets
(`KeyedSet.Dependable`). So it can be relied on after a replacement if and only if the two entries
have one key, and after a run of steps if each replacement in it is of that sort
(`KeyedSet.wellKeyed_run_of_allKeepKeys`). For instructions and for fields the kind decides the key.
For actions it does not: those that set fields are all of one kind, and each field has a key of its
own (`KeyedSet.dependable_replace`). -/

namespace OpenFlow

namespace KeyedSet

variable {α : Type}

/-! ## Under which key the new entry goes -/

theorem replaceSlot_of_missing {p : α → Bool} {slots : List (Nat × α)} (a : α)
    (h : ∀ slot ∈ slots, ¬ p slot.2 = true) : replaceSlot p a slots = slots := by
  induction slots with
  | nil => rfl
  | cons slot slots ih =>
    obtain ⟨hslot, hslots⟩ := List.forall_mem_cons.1 h
    rw [replaceSlot, if_neg hslot, ih hslots]

theorem lookup_replaceSlot {p : α → Bool} {slots : List (Nat × α)} {key : Nat} {old : α} (a : α)
    (hnodup : (slots.map Prod.fst).Nodup) (h : slots.find? (p ·.2) = some (key, old)) (k : Nat) :
    (replaceSlot p a slots).lookup k = if k = key then some a else slots.lookup k := by
  induction slots with
  | nil => cases h
  | cons slot slots ih =>
    obtain ⟨k', b⟩ := slot
    rw [List.map_cons, List.nodup_cons] at hnodup
    obtain ⟨hout, hslots⟩ := hnodup
    by_cases hb : p b = true
    · rw [List.find?_cons_of_pos (p := fun slot : Nat × α => p slot.2) hb] at h
      obtain ⟨rfl, rfl⟩ := Prod.mk.inj (Option.some.inj h)
      rw [replaceSlot, if_pos hb, lookup_cons_eq_ite, lookup_cons_eq_ite]
      split <;> rfl
    · rw [List.find?_cons_of_neg (p := fun slot : Nat × α => p slot.2) hb] at h
      rw [replaceSlot, if_neg hb, lookup_cons_eq_ite, lookup_cons_eq_ite, ih hslots h]
      -- the entry that is replaced stands under a later key
      have hne : k' ≠ key := by
        rintro rfl
        exact hout (List.mem_map.2 ⟨_, List.mem_of_find?_eq_some h, rfl⟩)
      by_cases hk : k = k'
      · rw [if_pos hk, if_pos hk, if_neg (hk ▸ hne)]
      · rw [if_neg hk, if_neg hk]

theorem find?_eq_map (s : KeyedSet α) (p : α → Bool) :
    s.find? p = (s.slots.find? (p ·.2)).map Prod.snd := List.find?_map

theorem replaceFirst_of_missing {s : KeyedSet α} {p : α → Bool} (a : α)
    (h : ∀ key b, s.get? key = some b → ¬ p b = true) : (s.replaceFirst p a).2 = s :=
  eq_of_slots_eq (replaceSlot_of_missing a fun _ hslot => h _ _ (mem_slots_iff.1 hslot))

/-- The new entry goes under the key of the one that it replaces, and nothing else is changed. -/
theorem get?_replaceFirst {s : KeyedSet α} {p : α → Bool} {key : Nat} {old : α}
    (h : s.IsFirst p key old) (a : α) :
    (s.replaceFirst p a).2.get? = Function.update s.get? key (some a) := by
  funext k
  rw [Function.update_apply]
  exact lookup_replaceSlot a (nodup_keys s.ascending) h.find?_eq k

section Keyed

variable [Keyed α]

/-- Entries stay under their own keys if and only if the new one has the key of the one that it
    replaces. -/
theorem WellKeyed.replaceFirst_iff {s : KeyedSet α} (hs : s.WellKeyed) (p : α → Bool) (a : α) :
    (s.replaceFirst p a).2.WellKeyed ↔
      ∀ old, s.find? p = some old → Keyed.key old = Keyed.key a := by
  rw [find?_eq_map]
  rcases s.missing_or_isFirst p with hmissing | ⟨key, old, hfirst⟩
  · rw [replaceFirst_of_missing a hmissing]
    have hfind : s.slots.find? (p ·.2) = none :=
      List.find?_eq_none.2 fun slot hslot => hmissing _ _ (mem_slots_iff.1 hslot)
    rw [hfind]
    exact ⟨fun _ old h => (nomatch h), fun _ => hs⟩
  · have hget := get?_replaceFirst hfirst a
    obtain rfl : key = Keyed.key old := hs (key, old) (mem_slots_iff.2 hfirst.under)
    rw [hfirst.find?_eq]
    constructor
    · intro ht b hb
      obtain rfl : old = b := Option.some.inj hb
      have hnew : (s.replaceFirst p a).2.get? (Keyed.key old) = some a := by
        rw [hget, Function.update_self]
      exact ht _ (mem_slots_iff.2 hnew)
    · rintro hkey ⟨k, b⟩ hslot
      have hb := mem_slots_iff.1 hslot
      rw [hget, Function.update_apply] at hb
      split at hb
      · rename_i hk
        rw [← Option.some.inj hb]
        exact hk.trans (hkey old rfl)
      · exact hs (k, b) (mem_slots_iff.2 hb)

/-! ## Sets that can be relied on -/

section Composite

variable [Composite α]

/-- What is relied on in a set. Each entry stands under its own key, is found there, and keeps
    others of its key out. If its lengths fit the set is written, and it is read back from its
    octets, unless limits stand in the way; the standard limits can only do so if they do not admit
    what is in an entry. -/
structure Dependable (s : KeyedSet α) : Prop where
  wellKeyed : s.WellKeyed
  found : ∀ a ∈ s.toList, s.get? (Keyed.key a) = some a
  refused : ∀ a ∈ s.toList, ∀ b, Keyed.key b = Keyed.key a → s.insert b = ((a, false), s)
  written : LengthsFit s → ∃ bs, Record.octets s = .ok bs
  readBack : ∀ bs, Record.octets s = .ok bs → ∀ limits : Limits, limits.Admits s →
    Record.ofOctetsWithin limits bs = .ok s
  exceeded : ∀ bs, Record.octets s = .ok bs → ∀ limits : Limits, ¬ limits.Admits s →
    ∃ resource actual limit, (Record.ofOctetsWithin limits bs : Except DecodeError (KeyedSet α))
      = .error (.limitExceeded resource actual limit)
  readBackStandard : ∀ bs, Record.octets s = .ok bs →
    (∀ a ∈ s.toList, Limits.standard.Admits a) → Record.ofOctets bs = .ok s

/-- The standard limits have room for a set of entries of all keys. -/
def StandardRoom (α : Type) [Keyed α] : Prop :=
  ∀ s : KeyedSet α, s.WellKeyed → s.size ≤ Limits.standard.of (Entry.resource α)

theorem WellKeyed.dependable {octets : α → Octets} (h : Transmits α octets)
    (hroom : StandardRoom α) {s : KeyedSet α} (hs : s.WellKeyed) : s.Dependable := by
  have hread : ∀ bs, Record.octets s = .ok bs → ∀ limits : Limits, limits.Admits s →
      Record.ofOctetsWithin limits bs = .ok s := by
    intro bs hbs limits hlimits
    obtain ⟨hfit, rfl⟩ := h.octets_eq_ok_iff.1 hbs
    exact h.ofOctetsWithin_eq hs hfit hlimits
  refine ⟨hs, ?_, ?_, fun hfit => ⟨_, h.octets_eq hfit⟩, hread, ?_, ?_⟩
  · intro a ha
    exact hs.get?_eq_some_iff.2 ⟨ha, rfl⟩
  · intro a ha b hkey
    exact insert_of_taken (hs.get?_eq_some_iff.2 ⟨ha, hkey.symm⟩)
  · intro bs hbs limits hlimits
    obtain ⟨hfit, rfl⟩ := h.octets_eq_ok_iff.1 hbs
    exact h.ofOctetsWithin_exceeds hs hfit hlimits
  · intro bs hbs hadmits
    have hsize : s.toList.length ≤ Limits.standard.of (Entry.resource α) := by
      rw [toList, List.length_map]
      exact hroom s hs
    exact hread bs hbs .standard (Limits.admits_iff.2 ⟨hsize, hadmits⟩)

end Composite

/-! ## Replacing an entry by one of its kind -/

variable [Kinded α]

/-- The entry that `a` takes the place of: the first one of its kind. -/
def alike? (s : KeyedSet α) (a : α) : Option α :=
  s.find? fun b => Kinded.alike (Kinded.kind b) (Kinded.kind a)

theorem dependable_replace_iff [Composite α] {octets : α → Octets} (h : Transmits α octets)
    (hroom : StandardRoom α) {s : KeyedSet α} (hs : s.WellKeyed) (a : α) :
    (s.apply (.replace a)).Dependable ↔
      ∀ old, s.alike? a = some old → Keyed.key old = Keyed.key a :=
  ⟨fun ht => (hs.replaceFirst_iff _ a).1 ht.wellKeyed,
    fun hkey => ((hs.replaceFirst_iff _ a).2 hkey).dependable h hroom⟩

/-! ## Runs that keep keys -/

/-- The step does not put an entry in place of one of another key. -/
def KeepsKeys (s : KeyedSet α) : SetStep α → Prop
  | .replace a => ∀ old, s.alike? a = some old → Keyed.key old = Keyed.key a
  | _ => True

/-- None of the steps does, each in the set that those before it lead to. -/
def AllKeepKeys : KeyedSet α → List (SetStep α) → Prop
  | _, [] => True
  | s, step :: steps => s.KeepsKeys step ∧ (s.apply step).AllKeepKeys steps

/-- Entries stay under their own keys if and only if the step keeps keys. -/
theorem WellKeyed.apply_iff {s : KeyedSet α} (hs : s.WellKeyed) (step : SetStep α) :
    (s.apply step).WellKeyed ↔ s.KeepsKeys step := by
  constructor
  · intro h
    cases step with
    | replace a => exact (hs.replaceFirst_iff _ a).1 h
    | _ => exact trivial
  · intro hkeeps
    refine EachSlot.apply_of_replace (P := OwnKey) (fun _ => rfl) hs step ?_
    rintro a rfl
    exact (hs.replaceFirst_iff _ a).2 hkeeps

theorem wellKeyed_run_of_allKeepKeys {steps : List (SetStep α)} (h : empty.AllKeepKeys steps) :
    (run steps).WellKeyed := by
  suffices hfold : ∀ s : KeyedSet α, s.WellKeyed → s.AllKeepKeys steps →
      (steps.foldl apply s).WellKeyed by
    exact hfold empty wellKeyed_empty h
  clear h
  induction steps with
  | nil =>
    intro s hs _
    exact hs
  | cons step steps ih =>
    rintro s hs ⟨hkeeps, hrest⟩
    exact ih (s.apply step) ((hs.apply_iff step).2 hkeeps) hrest

end Keyed

end KeyedSet

/-! ## Keys of actions -/

namespace Action

/-- What the field that an action sets adds to its key. -/
def fieldKey : Action → Nat
  | setField field => field.kind.oxmType
  | _ => 0

theorem key_eq (a : Action) :
    a.key = a.kind.priority <<< 48 + a.kind.code <<< 32 + a.fieldKey := by
  cases a <;> rfl

/-- The kinds of actions of which there is one in a set. -/
def onceKinds : List ActionKind :=
  ActionKind.all.filter fun k => k != .setField && k != .experimenter

/-- The keys of actions: one for each kind of which there is one in a set, and one for each field
    that may be set. -/
def keys : List Nat :=
  (onceKinds.map fun k => k.priority <<< 48 + k.code <<< 32)
    ++ OxmKind.all.map fun k =>
      ActionKind.setField.priority <<< 48 + ActionKind.setField.code <<< 32 + k.oxmType

theorem length_keys : keys.length = 55 := by decide

theorem mem_onceKinds {k : ActionKind} :
    k ∈ onceKinds ↔ k ≠ .setField ∧ k ≠ .experimenter := by
  cases k <;> decide

theorem key_mem_keys (a : Action) : a.key ∈ keys := by
  rw [key_eq]
  by_cases hkind : a.kind = .setField
  · obtain ⟨field, rfl⟩ : ∃ field, a = setField field := by
      cases a <;> first | exact ⟨_, rfl⟩ | cases hkind
    rw [kind, fieldKey]
    exact List.mem_append_right _ (List.mem_map_of_mem field.kind.mem_all)
  · have hfield : a.fieldKey = 0 := by
      cases a <;> first | rfl | exact absurd rfl hkind
    have hother : a.kind ≠ .experimenter := by
      cases a <;> nofun
    rw [hfield, Nat.add_zero]
    exact List.mem_append_left _ (List.mem_map_of_mem (mem_onceKinds.2 ⟨hkind, hother⟩))

/-- There are no more actions of different keys than there are keys. -/
theorem length_le_of_nodup_keys {as : List Action} (h : (as.map key).Nodup) : as.length ≤ 55 := by
  have hsubset : as.map key ⊆ keys := by
    intro k hk
    obtain ⟨a, -, rfl⟩ := List.mem_map.1 hk
    exact a.key_mem_keys
  have hle := h.length_le_of_subset hsubset
  rwa [List.length_map, length_keys] at hle

theorem standardRoom : KeyedSet.StandardRoom Action := fun _ hs =>
  Nat.le_trans (hs.size_le keys key_mem_keys) (length_keys ▸ by decide)

/-- Actions of one kind have one key, unless they set different fields. -/
theorem key_eq_iff_of_kind_eq {a b : Action} (h : a.kind = b.kind) :
    a.key = b.key ↔ ∀ f g, a = setField f → b = setField g → f.kind = g.kind := by
  rw [key_eq, key_eq, h, Nat.add_left_cancel_iff]
  constructor
  · rintro hkey f g rfl rfl
    exact OxmKind.oxmType_injective hkey
  · intro hfields
    cases a with
    | setField f =>
      cases b with
      | setField g => exact congrArg OxmKind.oxmType (hfields f g rfl rfl)
      | _ => cases h
    | _ =>
      cases b with
      | setField g => cases h
      | _ => rfl

end Action

theorem Instruction.standardRoom : KeyedSet.StandardRoom Instruction := by
  intro s hs
  let keys := InstructionKind.all.map fun k => k.priority <<< 48 + k.code <<< 32
  have hkeys : ∀ i : Instruction, Keyed.key i ∈ keys := fun i =>
    List.mem_map.2 ⟨i.kind, by cases i.kind <;> decide, rfl⟩
  exact Nat.le_trans (hs.size_le keys hkeys) (by decide)

theorem Instruction.kindsDecideKeys : KeyedSet.KindsDecideKeys Instruction := by
  intro i j h
  have hkind : i.kind = j.kind := eq_of_beq h
  show i.kind.priority <<< 48 + i.kind.code <<< 32 = j.kind.priority <<< 48 + j.kind.code <<< 32
  rw [hkind]

theorem Field.standardRoom : KeyedSet.StandardRoom Field := fun _ hs =>
  Nat.le_trans (KeyedSet.size_le hs) (by decide)

/-! ## Sets of actions, of instructions and of fields -/

namespace KeyedSet

/-- After an entry was replaced by one of its kind a set can be relied on, except for a set of
    actions in which an action that sets a field was replaced by one that sets another field. -/
theorem dependable_replace {actions : KeyedSet Action} {instructions : KeyedSet Instruction}
    {fields : KeyedSet Field} (hactions : actions.WellKeyed) (hinstructions : instructions.WellKeyed)
    (hfields : fields.WellKeyed) (a : Action) (i : Instruction) (f : Field) :
    ((actions.apply (.replace a)).Dependable ↔ ∀ g h, actions.alike? a = some (.setField g) →
        a = .setField h → g.kind = h.kind)
      ∧ (instructions.apply (.replace i)).Dependable ∧ (fields.apply (.replace f)).Dependable := by
  refine ⟨?_, ?_, ?_⟩
  · rw [dependable_replace_iff Action.transmits Action.standardRoom hactions]
    constructor
    · intro hkeys g h hold ha
      have hkind : (Action.setField g).kind = a.kind := by rw [ha]; rfl
      exact (Action.key_eq_iff_of_kind_eq hkind).1 (hkeys _ hold) g h rfl ha
    · intro hsame old hold
      have hkind : old.kind = a.kind :=
        eq_of_beq (List.find?_some (p := fun b : Action => b.kind == a.kind) hold)
      exact (Action.key_eq_iff_of_kind_eq hkind).2 fun g h hg => hsame g h (hg ▸ hold)
  · have hkeyed := hinstructions.apply Instruction.kindsDecideKeys (.replace i)
    exact hkeyed.dependable Instruction.transmits Instruction.standardRoom
  · have hkeyed := hfields.apply Field.kindsDecideKeys (.replace f)
    exact hkeyed.dependable Field.transmits Field.standardRoom

/-- Where each new entry has the key of the old one: of two actions that set fields, the first is
    replaced by one that sets the same field. -/
theorem dependable_replace_same_field :
    let actions : KeyedSet Action := ofList [.output 1 0xffff, .setField ⟨.ipProto, 6#8, none⟩,
      .setField ⟨.ethType, 0x0800#16, none⟩]
    let instructions : KeyedSet Instruction := ofList [.applyActions [.popVlan], .gotoTable 1]
    let fields : KeyedSet Field := ofList [⟨.inPort, 1#32, none⟩, ⟨.ethType, 0x0800#16, none⟩]
    actions.WellKeyed ∧ instructions.WellKeyed ∧ fields.WellKeyed
      ∧ (actions.apply (.replace (.setField ⟨.ethType, 0x86dd#16, none⟩))).Dependable
      ∧ (instructions.apply (.replace (.applyActions []))).Dependable
      ∧ (fields.apply (.replace ⟨.inPort, 2#32, some 0#32⟩)).Dependable := by
  intro actions instructions fields
  have hactions : actions.WellKeyed := wellKeyed_ofList _
  have hinstructions : instructions.WellKeyed := wellKeyed_ofList _
  have hfields : fields.WellKeyed := wellKeyed_ofList _
  have hold : actions.alike? (.setField ⟨.ethType, 0x86dd#16, none⟩)
      = some (.setField ⟨.ethType, 0x0800#16, none⟩) := by decide
  obtain ⟨hiff, hdependable⟩ := dependable_replace hactions hinstructions hfields
    (.setField ⟨.ethType, 0x86dd#16, none⟩) (.applyActions []) ⟨.inPort, 2#32, some 0#32⟩
  refine ⟨hactions, hinstructions, hfields, hiff.2 fun g h hg hh => ?_, hdependable⟩
  rw [hold] at hg
  obtain rfl := Action.setField.inj (Option.some.inj hg)
  obtain rfl := Action.setField.inj hh
  rfl

/-- An action that sets another field than the one whose place it takes: it is not found under its
    key and keeps no other out, and the set of the two is not read back. -/
theorem not_dependable_other_field :
    let first : Action := .setField ⟨.ethType, 0x0800#16, none⟩
    let second : Action := .setField ⟨.ipProto, 6#8, none⟩
    let third : Action := .setField ⟨.ipProto, 17#8, none⟩
    let s := (ofList [first]).apply (.replace second)
    (ofList [first]).WellKeyed ∧ ¬ s.Dependable ∧ second ∈ s.toList
      ∧ s.get? (Keyed.key second) = none ∧ (s.insert third).1 = (third, true)
      ∧ ∃ bs, Record.octets (s.insert third).2 = .ok bs
        ∧ (Record.ofOctets bs : Except DecodeError (KeyedSet Action))
          = .error (.duplicateKey .actionSet (Keyed.key third)) := by
  intro first second third s
  have hmem : second ∈ s.toList := by decide
  have hmissing : s.get? (Keyed.key second) = none := by decide
  have hwritten : Record.octets (s.insert third).2
      = .ok ((s.insert third).2.toList.flatMap Action.octets) :=
    Action.transmits.octets_eq (by decide)
  refine ⟨wellKeyed_ofList _, fun h => ?_, hmem, hmissing, by decide, _, hwritten, ?_⟩
  · have hfound := h.found second hmem
    rw [hmissing] at hfound
    cases hfound
  · decide +kernel

end KeyedSet

end OpenFlow
