import OpenFlow.Bucket
import OpenFlow.Proofs.KeyedSet.Order
import OpenFlow.Proofs.KeyedSet.Same
import OpenFlow.Proofs.Validation.Sequence

set_option autoImplicit false

/-! # Which lists of actions and of instructions are accepted

Entries are held against each other in three ways. In a list of actions none may mean the same as an
earlier one, in a list of instructions none may be of the kind of an earlier one, and where actions
go into a set, those of a bucket and those that an instruction writes, none may have the key of an
earlier one. Actions that mean the same have one key (`Action.key_eq_of_same`), so the last asks for
more than the first, and what an instruction that writes actions checks besides the keys adds
nothing to it: buckets and such instructions accept the same actions. A list of instructions that is
accepted has a place in the set for each (`validation_judges`). -/

namespace OpenFlow

/-! ## Actions that mean the same -/

theorem Field.kind_eq_of_same {f g : Field} (h : f.same g = true) : f.kind = g.kind :=
  congrArg (·.kind) (Field.same_iff.1 h)

namespace Action

theorem same_iff {a b : Action} : a.same b = true ↔
    a = b ∨ ∃ f g, a = setField f ∧ b = setField g ∧ f.same g = true := by
  cases a with
  | setField f =>
    cases b with
    | setField g =>
      constructor
      · intro h
        exact .inr ⟨f, g, rfl, rfl, h⟩
      · rintro (h | ⟨f', g', hf, hg, h⟩)
        · obtain rfl := setField.inj h
          exact f.same_refl
        · obtain rfl := setField.inj hf
          obtain rfl := setField.inj hg
          exact h
    | _ => simp [same]
  | _ => simp [same]

theorem same_symm {a b : Action} (h : a.same b = true) : b.same a = true := by
  rcases same_iff.1 h with rfl | ⟨f, g, rfl, rfl, hfields⟩
  · exact h
  · exact Field.same_symm hfields

theorem same_comm (a b : Action) : a.same b = b.same a :=
  Bool.eq_iff_iff.2 ⟨same_symm, same_symm⟩

/-- A mask does not count in a key. -/
theorem key_eq_of_same {a b : Action} (h : a.same b = true) : a.key = b.key := by
  rcases same_iff.1 h with rfl | ⟨f, g, rfl, rfl, hfields⟩
  · rfl
  · exact (key_eq_key_iff _ _).2 ⟨rfl, congrArg some (Field.kind_eq_of_same hfields)⟩

/-- Actions of different keys do not mean the same. -/
theorem clean_of_cleanBy_key {as : List Action} (h : CleanBy validate key as) :
    Clean validate same as := by
  refine ⟨h.valid, (List.pairwise_map.1 h.distinct).imp fun {a b} hne => ?_⟩
  exact Bool.eq_false_iff.2 fun hsame => hne (key_eq_of_same hsame)

theorem validateList_eq_ok_iff {as : List Action} :
    validateList as = .ok () ↔ Clean validate same as :=
  validateDistinct_nil_eq_ok_iff

theorem checkUniqueKeys_eq_ok_iff {as : List Action} :
    checkUniqueKeys as = .ok () ↔ (as.map key).Nodup := by
  unfold checkUniqueKeys
  rw [validateDistinct_nil_eq_ok_iff, clean_beq_iff]
  exact ⟨CleanBy.distinct, fun h => ⟨fun _ _ => rfl, h⟩⟩

theorem judges_validateList : Judges validateList (Clean validate same) :=
  .of_iff (fun _ => validateList_eq_ok_iff) fun _ _ => Clean.perm_iff same_comm

end Action

/-! ## Actions of a set -/

theorem Bucket.accepted_iff {b : Bucket} :
    b.validate = .ok () ↔ CleanBy Action.validate Action.key b.actions := by
  rw [Bucket.validate, run_and_then_eq_ok_iff, validateEach_eq_ok_iff,
    Action.checkUniqueKeys_eq_ok_iff]
  exact ⟨fun h => ⟨h.1, h.2⟩, fun h => ⟨h.valid, h.distinct⟩⟩

namespace Instruction

/-- Actions of different keys that are valid make a valid list, so it is enough to ask for that. -/
theorem validate_writeActions_eq_ok_iff {as : List Action} :
    (writeActions as).validate = .ok () ↔ CleanBy Action.validate Action.key as := by
  rw [validate, run_and_then_eq_ok_iff, Action.validateList_eq_ok_iff,
    Action.checkUniqueKeys_eq_ok_iff]
  exact ⟨fun h => ⟨h.1.valid, h.2⟩, fun h => ⟨Action.clean_of_cleanBy_key h, h.distinct⟩⟩

/-! ## Instructions -/

theorem validateList_eq_ok_iff {is : List Instruction} :
    validateList is = .ok () ↔ CleanBy validate kind is := by
  unfold validateList
  rw [validateDistinct_nil_eq_ok_iff, clean_beq_iff]

theorem judges_validateList : Judges validateList (CleanBy validate kind) :=
  .of_iff (fun _ => validateList_eq_ok_iff) fun _ _ => CleanBy.perm_iff

/-- Instructions of different kinds have different keys. -/
theorem nodup_keys_of_nodup_kinds {is : List Instruction} (h : (is.map kind).Nodup) :
    (is.map Keyed.key).Nodup := by
  refine List.pairwise_map.2 ((List.pairwise_map.1 h).imp fun {i j} hne hkey => ?_)
  exact hne ((key_eq_key_iff i j).1 hkey)

theorem toList_ofList_perm_of_validateList {is : List Instruction} (h : validateList is = .ok ()) :
    (KeyedSet.ofList is).toList.Perm is :=
  KeyedSet.toList_ofList_perm (nodup_keys_of_nodup_kinds (validateList_eq_ok_iff.1 h).distinct)

end Instruction

/-! ## All checks of lists -/

/-- A list of actions is accepted if they are valid and no two mean the same, a list of instructions
    if they are valid and of different kinds, and then its set has all of them. Buckets and
    instructions that write actions accept those that are valid and of different keys. No order of
    the entries makes a difference to that, but it does to what is reported: the fault of the first
    entry that is not valid or repeats an earlier one. -/
theorem validation_judges :
    Judges Action.validateList (Clean Action.validate Action.same)
      ∧ Judges Instruction.validateList (CleanBy Instruction.validate Instruction.kind)
      ∧ (∀ is, Instruction.validateList is = .ok () → (KeyedSet.ofList is).toList.Perm is)
      ∧ (∀ weight watchPort watchGroup,
          Judges (fun as => Bucket.validate ⟨weight, watchPort, watchGroup, as⟩)
            (CleanBy Action.validate Action.key))
      ∧ Judges (fun as => (Instruction.writeActions as).validate)
          (CleanBy Action.validate Action.key)
      ∧ (∀ b : Bucket, b.validate = .ok () ↔ (Instruction.writeActions b.actions).validate = .ok ())
      ∧ (∀ as v, Action.validateList as = .error v ↔
          FirstFault Action.validate Action.same (fun a => .duplicateAction a.kind.name) as v)
      ∧ ∀ is v, Instruction.validateList is = .error v ↔
          FirstFault Instruction.validate (fun i j => i.kind == j.kind)
            (fun i => .duplicateInstruction i.kind.name) is v := by
  refine ⟨Action.judges_validateList, Instruction.judges_validateList,
    fun _ => Instruction.toList_ofList_perm_of_validateList, ?_, ?_, ?_,
    fun _ _ => validateDistinct_eq_error_iff, fun _ _ => validateDistinct_eq_error_iff⟩
  · intro weight watchPort watchGroup
    exact .of_iff (fun as => Bucket.accepted_iff (b := ⟨weight, watchPort, watchGroup, as⟩))
      fun _ _ => CleanBy.perm_iff
  · exact .of_iff (fun _ => Instruction.validate_writeActions_eq_ok_iff) fun _ _ => CleanBy.perm_iff
  · intro b
    rw [Bucket.accepted_iff, Instruction.validate_writeActions_eq_ok_iff]

/-- Three instructions of different kinds are accepted in one order and in the other, and each has
    its place in the set. -/
theorem validation_judges_reversed :
    let is : List Instruction := [.gotoTable 1, .applyActions [.popVlan, .decNwTtl], .meter 5]
    is.Perm is.reverse ∧ Instruction.validateList is = .ok ()
      ∧ Instruction.validateList is.reverse = .ok () ∧ (KeyedSet.ofList is).toList.Perm is := by
  intro is
  obtain ⟨-, hjudges, hset, -⟩ := validation_judges
  have hperm : is.Perm is.reverse := is.reverse_perm.symm
  have hok : Instruction.validateList is = .ok () := by decide
  exact ⟨hperm, hok, (hjudges.perm_iff is is.reverse hperm).1 hok, hset is hok⟩

/-- A list may set the time to live twice, a bucket may not. -/
example : Action.validateList [.setNwTtl 64, .popVlan, .setNwTtl 32] = .ok ()
    ∧ (Bucket.always [.setNwTtl 64, .popVlan, .setNwTtl 32]).validate
      = .error (.duplicateAction "set_nw_ttl") := by
  decide

end OpenFlow
