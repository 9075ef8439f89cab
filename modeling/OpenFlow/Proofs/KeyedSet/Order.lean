import OpenFlow.Proofs.KeyedSet.Replacing

set_option autoImplicit false

/-! # The order of entries

The order in which entries of different keys come in has no influence on the set that they make, nor
on its octets (`KeyedSet.OrderFree`). Keys are packed: the priority of an action stands above its
code, and that above the field that it sets. None of the parts reaches into the next, so a key tells
them all, and keys ascend with priorities. An entry that was put in place of another of its kind may
stand under a key that is not its own, but the priority in that key is its own. So the entries of a
set are in the order in which they are carried out, whatever steps made it
(`KeyedSet.ordered_by_keys`). -/

namespace OpenFlow

namespace KeyedSet

variable {α : Type}

/-! ## The order in which entries come in -/

/-- Entries of different keys make one set, in whatever order they come in: they are gone through in
    ascending order of keys, and they are written to the same octets. -/
structure OrderFree (α : Type) [Keyed α] : Prop where
  sorted : ∀ as : List α, (as.map Keyed.key).Nodup → (ofList as).toList.Perm as
    ∧ (ofList as).toList.Pairwise fun a b => Keyed.key a < Keyed.key b
  toList_eq : ∀ as bs : List α, (as.map Keyed.key).Nodup → as.Perm bs →
    (ofList as).toList = (ofList bs).toList
  octets_eq : ∀ as bs : List α, (as.map Keyed.key).Nodup → as.Perm bs →
    Record.octets (ofList as) = Record.octets (ofList bs)

section Keyed

variable [Keyed α]

theorem ofList_eq_of_perm {as bs : List α} (hdistinct : (as.map Keyed.key).Nodup)
    (hperm : as.Perm bs) : ofList as = ofList bs := by
  have hdistinct' : (bs.map Keyed.key).Nodup := (hperm.map Keyed.key).nodup_iff.1 hdistinct
  have hentries : (ofList as).toList.Perm (ofList bs).toList :=
    (toList_ofList_perm hdistinct).trans (hperm.trans (toList_ofList_perm hdistinct').symm)
  refine ext_get? fun key => Option.ext fun a => ?_
  rw [(wellKeyed_ofList as).get?_eq_some_iff, (wellKeyed_ofList bs).get?_eq_some_iff,
    hentries.mem_iff]

theorem orderFree : OrderFree α where
  sorted as hdistinct := ⟨toList_ofList_perm hdistinct, (wellKeyed_ofList as).pairwise_toList⟩
  toList_eq _ _ hdistinct hperm := congrArg toList (ofList_eq_of_perm hdistinct hperm)
  octets_eq _ _ hdistinct hperm := congrArg Record.octets (ofList_eq_of_perm hdistinct hperm)

end Keyed

/-! ## The order in which entries are carried out -/

/-- The entries are in the order of their priorities, and their octets follow each other in that
    order. -/
structure Staged [Keyed α] (priority : α → Nat) (s : KeyedSet α) : Prop where
  entries : s.toList.Pairwise fun a b => priority a ≤ priority b
  written : ∀ bs, Record.octets s = .ok bs → ∃ chunks : List Octets, bs = chunks.flatten
    ∧ List.Forall₂ (fun a chunk => Record.octets a = .ok chunk) s.toList chunks

/-- The keys of a set ascend, and so does what the keys of entries tell of these. -/
theorem EachSlot.pairwise_toList {rank : Nat → Nat} {priority : α → Nat} {s : KeyedSet α}
    (hrank : ∀ k l, k ≤ l → rank k ≤ rank l)
    (h : s.EachSlot fun key a => rank key = priority a) :
    s.toList.Pairwise fun a b => priority a ≤ priority b := by
  refine List.pairwise_map.2 ((List.pairwise_map.1 s.ascending).imp_of_mem ?_)
  intro slot slot' hslot hslot' hlt
  rw [← h slot hslot, ← h slot' hslot']
  exact hrank _ _ (Nat.le_of_lt hlt)

section Composite

variable [Keyed α] [Composite α] {octets : α → Octets} (h : Transmits α octets)

include h

theorem exists_chunks {s : KeyedSet α} {bs : Octets} (hbs : Record.octets s = .ok bs) :
    ∃ chunks : List Octets, bs = chunks.flatten
      ∧ List.Forall₂ (fun a chunk => Record.octets a = .ok chunk) s.toList chunks := by
  obtain ⟨hfit, rfl⟩ := h.octets_eq_ok_iff.1 hbs
  refine ⟨s.toList.map octets, List.flatMap_def, ?_⟩
  rw [List.forall₂_map_right_iff, List.forall₂_same]
  intro a ha
  exact (h.writes a (LengthsFit.of_mem hfit ha)).toExcept_eq

/-- If a key tells the priority of what has it, and kinds decide priorities, entries are in the
    order of priorities after any steps. -/
theorem staged_run [Kinded α] {rank : Nat → Nat} {priority : α → Nat}
    (hrank : ∀ k l, k ≤ l → rank k ≤ rank l)
    (hkey : ∀ a : α, rank (Keyed.key a) = priority a)
    (hkinds : ∀ a b : α, Kinded.alike (Kinded.kind b) (Kinded.kind a) = true →
      priority b = priority a) (steps : List (SetStep α)) : (run steps).Staged priority where
  entries := EachSlot.pairwise_toList hrank <|
    eachSlot_run hkey (fun _ a b halike hb => hb.trans (hkinds a b halike)) steps
  written _ hbs := exists_chunks h hbs

end Composite

end KeyedSet

/-! ## What keys are made of -/

/-- The parts of a key do not reach into each other. -/
theorem packed_eq_iff {p p' c c' f f' : Nat} (hc : c < 65536) (hc' : c' < 65536)
    (hf : f < 2 ^ 32) (hf' : f' < 2 ^ 32) :
    p <<< 48 + c <<< 32 + f = p' <<< 48 + c' <<< 32 + f' ↔ p = p' ∧ c = c' ∧ f = f' := by
  simp only [Nat.shiftLeft_eq]
  omega

theorem packed_shiftRight {p c f : Nat} (hc : c < 65536) (hf : f < 2 ^ 32) :
    (p <<< 48 + c <<< 32 + f) >>> 48 = p := by
  simp only [Nat.shiftLeft_eq, Nat.shiftRight_eq_div_pow]
  omega

theorem shiftRight_mono (k l : Nat) (h : k ≤ l) : k >>> 48 ≤ l >>> 48 := by
  simp only [Nat.shiftRight_eq_div_pow]
  exact Nat.div_le_div_right h

theorem OxmKind.oxmType_lt (k : OxmKind) : k.oxmType < 2 ^ 32 := by
  cases k <;> decide

namespace Action

/-- The kind of the field that an action sets. -/
def fieldKind? : Action → Option OxmKind
  | setField field => some field.kind
  | _ => none

theorem fieldKey_lt (a : Action) : a.fieldKey < 2 ^ 32 := by
  cases a with
  | setField field => exact field.kind.oxmType_lt
  | _ => exact Nat.two_pow_pos 32

theorem key_shiftRight (a : Action) : a.key >>> 48 = a.priority := by
  rw [key_eq]
  exact packed_shiftRight a.kind.code_lt a.fieldKey_lt

/-- Actions have one key if and only if they are of one kind and, if they set fields, set fields of
    one kind. -/
theorem key_eq_key_iff (a b : Action) :
    a.key = b.key ↔ a.kind = b.kind ∧ a.fieldKind? = b.fieldKind? := by
  constructor
  · intro hkey
    rw [key_eq, key_eq, packed_eq_iff a.kind.code_lt b.kind.code_lt a.fieldKey_lt b.fieldKey_lt]
      at hkey
    obtain ⟨-, hcode, hfield⟩ := hkey
    have hkind := ActionKind.code_injective hcode
    refine ⟨hkind, ?_⟩
    cases a with
    | setField f =>
      cases b with
      | setField g => exact congrArg some (OxmKind.oxmType_injective hfield)
      | _ => cases hkind
    | _ =>
      cases b with
      | setField g => cases hkind
      | _ => rfl
  · rintro ⟨hkind, hfield⟩
    rw [key_eq_iff_of_kind_eq hkind]
    rintro f g rfl rfl
    exact Option.some.inj hfield

end Action

namespace Instruction

theorem key_eq (i : Instruction) : i.key = i.kind.priority <<< 48 + i.kind.code <<< 32 + 0 :=
  (Nat.add_zero _).symm

theorem key_shiftRight (i : Instruction) : i.key >>> 48 = i.priority := by
  rw [key_eq]
  exact packed_shiftRight i.kind.code_lt (by decide)

theorem key_eq_key_iff (i j : Instruction) : i.key = j.key ↔ i.kind = j.kind := by
  constructor
  · intro hkey
    rw [key_eq, key_eq, packed_eq_iff i.kind.code_lt j.kind.code_lt (by decide) (by decide)] at hkey
    exact InstructionKind.code_injective hkey.2.1
  · intro hkind
    rw [key_eq, key_eq, hkind]

end Instruction

/-! ## Sets of actions, of instructions and of fields -/

namespace KeyedSet

/-- The order in which entries of different keys come in does not matter, keys differ as kinds do
    and, for actions that set fields, as kinds of fields do, and after any steps the actions and the
    instructions of a set are in the order in which they are carried out. -/
theorem ordered_by_keys :
    (OrderFree Action ∧ OrderFree Instruction ∧ OrderFree Field)
      ∧ (∀ a b : Action, Keyed.key a = Keyed.key b ↔
          a.kind = b.kind ∧ a.fieldKind? = b.fieldKind?)
      ∧ (∀ i j : Instruction, Keyed.key i = Keyed.key j ↔ i.kind = j.kind)
      ∧ (∀ f g : Field, Keyed.key f = Keyed.key g ↔ f.kind = g.kind)
      ∧ (∀ steps : List (SetStep Action), (run steps).Staged Action.priority)
      ∧ ∀ steps : List (SetStep Instruction), (run steps).Staged Instruction.priority := by
  refine ⟨⟨orderFree, orderFree, orderFree⟩, Action.key_eq_key_iff, Instruction.key_eq_key_iff,
    fun f g => ⟨OxmKind.oxmType_injective, congrArg OxmKind.oxmType⟩, ?_, ?_⟩
  · refine staged_run Action.transmits shiftRight_mono Action.key_shiftRight ?_
    intro a b halike
    exact congrArg ActionKind.priority (eq_of_beq halike)
  · refine staged_run Instruction.transmits shiftRight_mono Instruction.key_shiftRight ?_
    intro i j halike
    exact congrArg InstructionKind.priority (eq_of_beq halike)

/-- Two fields are set, the second in place of the first and under its key; priorities ascend all
    the same. -/
example :
    (run [.insert (.output 1 0xffff), .insert (.setField ⟨.ethType, 0x0800#16, none⟩),
      .replace (.setField ⟨.ipProto, 6#8, none⟩), .insert .popVlan] : KeyedSet Action).toList
      = [.popVlan, .setField ⟨.ipProto, 6#8, none⟩, .output 1 0xffff] := by
  decide

end KeyedSet

end OpenFlow
