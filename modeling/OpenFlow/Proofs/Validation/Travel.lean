import OpenFlow.Proofs.RoundTrip.Bucket
import OpenFlow.Proofs.Validation.Lists

set_option autoImplicit false

/-! # Actions that were accepted for a set can be sent

Nothing that is checked of a bucket, or of an instruction that writes actions, is about sizes. But
actions that are accepted there have different keys, and there are fifty-five of these: one for each
kind of action, and for the kind that sets fields one for each field. Fifty-five actions of forty
octets at most fit where they have to, and the standard limits have room for them
(`Action.fits_of_nodup_keys`). So what was accepted is written, and read back as it was.

Sets of actions are always written. They are read back if their actions stand under their own keys,
which they do after any steps that do not replace an action by one of another key
(`validated_actions_travel`). -/

namespace OpenFlow

/-! ## How much accepted actions amount to -/

namespace Action

/-- Actions of different keys are few and short. -/
theorem fits_of_nodup_keys {as : List Action} (h : (as.map key).Nodup) :
    as.length ≤ Limits.standard.of .actions ∧ Sequence.length as ≤ 2200 := by
  have hcount : as.length ≤ 55 := length_le_of_nodup_keys h
  have hlength : Sequence.length as ≤ as.length * 40 :=
    Sequence.length_le_of_forall fun a _ => a.length_le
  have hroom : 55 ≤ Limits.standard.of .actions := by decide
  omega

theorem actionSet_of_nodup_keys {as : List Action} (h : (as.map key).Nodup) :
    Instruction.actionSet as = .ok (.ofList as) := by
  rw [Instruction.actionSet, checkUniqueKeys_eq_ok_iff.2 h]
  rfl

/-- The standard limits admit a list of actions if there is room for all: an action holds no
    collection. -/
theorem admits_standard {as : List Action} (h : as.length ≤ Limits.standard.of .actions) :
    Limits.standard.Admits as :=
  Limits.admits_iff.2 ⟨h, fun _ _ => List.forall_mem_nil _⟩

end Action

/-! ## Records of accepted actions -/

/-- The actions of the record `a` have different keys, so there are few of them and a set keeps all,
    and the record is written and read back as it is. -/
structure Travels {α : Type} [Record α] (as : List Action) (a : α) : Prop where
  distinct : (as.map Action.key).Nodup
  few : as.length ≤ 55
  placed : Instruction.actionSet as = .ok (.ofList as)
  kept : (KeyedSet.ofList as).toList.Perm as
  carried : ∃ bs, Record.octets a = .ok bs ∧ Record.ofOctets bs = .ok a

theorem Travels.of_carries {α : Type} [Record α] {as : List Action} {a : α} {bs : Octets}
    (h : (as.map Action.key).Nodup) (hcarries : Carries .standard bs a) : Travels as a where
  distinct := h
  few := Action.length_le_of_nodup_keys h
  placed := Action.actionSet_of_nodup_keys h
  kept := KeyedSet.toList_ofList_perm h
  carried := ⟨bs, hcarries.writes.toExcept_eq, hcarries.alone.ofOctetsWithin_eq⟩

theorem Bucket.travels {b : Bucket} (h : b.validate = .ok ()) : Travels b.actions b := by
  have hkeys := (accepted_iff.1 h).distinct
  obtain ⟨hcount, hsize⟩ := Action.fits_of_nodup_keys hkeys
  have hlength : b.length ≤ 0xffff := by
    rw [length, headerLength]
    omega
  have hfit : LengthsFit b := List.forall_mem_cons.2 ⟨hlength, Action.lengthsFit_list b.actions⟩
  exact .of_carries hkeys (carries hfit (Action.admits_standard hcount))

namespace Instruction

theorem length_writeActions_le {as : List Action} (h : (as.map Action.key).Nodup) :
    (writeActions as).length ≤ 0xffff := by
  have hsize := (Action.fits_of_nodup_keys h).2
  rw [length]
  omega

theorem travels_writeActions {as : List Action} (h : (writeActions as).validate = .ok ()) :
    Travels as (writeActions as) := by
  have hkeys := (validate_writeActions_eq_ok_iff.1 h).distinct
  have hcount := (Action.fits_of_nodup_keys hkeys).1
  have hfit : LengthsFit (writeActions as) :=
    List.forall_mem_cons.2 ⟨length_writeActions_le hkeys, Action.lengthsFit_list as⟩
  exact .of_carries hkeys (carries hfit (Action.admits_standard hcount))

/-- The decoder of just these instructions reads them back, too. -/
theorem run_decodeAs_writeActions {as : List Action} (h : (writeActions as).validate = .ok ()) :
    (decodeAs .standard .writeActions).run (.start (writeActions as).octets)
      = (.ok (writeActions as), ⟨(writeActions as).octets.length, []⟩) := by
  have hkeys := (validate_writeActions_eq_ok_iff.1 h).distinct
  have hcount := (Action.fits_of_nodup_keys hkeys).1
  have hreads := reads_decodeAs (i := writeActions as) (length_writeActions_le hkeys) hcount
  exact (hreads []).run_start

end Instruction

/-! ## Sets of actions -/

namespace KeyedSet

theorem octets_actionSet (s : KeyedSet Action) :
    Record.octets s = .ok (s.toList.flatMap Action.octets) :=
  Action.transmits.octets_eq (Action.lengthsFit_list s.toList)

/-- A set of actions is read back from its octets if and only if each action is under its own
    key. -/
theorem ofOctets_actionSet_iff (s : KeyedSet Action) :
    Record.ofOctets (s.toList.flatMap Action.octets) = .ok s ↔ s.WellKeyed := by
  constructor
  · intro h
    obtain ⟨c, hrun, -⟩ := Record.ofOctetsWithin_eq_ok_iff.1 h
    exact wellKeyed_of_decode hrun
  · intro hs
    have hdependable := hs.dependable Action.transmits Action.standardRoom
    exact hdependable.readBackStandard _ s.octets_actionSet fun _ _ => List.forall_mem_nil _

end KeyedSet

/-- Buckets and instructions that write actions can be sent if they were accepted. A set of actions
    is written, and it is read back if and only if its actions stand under their own keys, which
    they do after steps that keep keys. -/
theorem validated_actions_travel (weight : UInt16) (watchPort watchGroup : UInt32)
    (as : List Action) (steps : List (SetStep Action)) :
    (∀ b, Record.checked (⟨weight, watchPort, watchGroup, as⟩ : Bucket) = .ok b →
        b = ⟨weight, watchPort, watchGroup, as⟩ ∧ Travels as b)
      ∧ ((Instruction.writeActions as).validate = .ok () →
          Travels as (Instruction.writeActions as)
            ∧ ∃ bs, Record.octets (Instruction.writeActions as) = .ok bs
              ∧ (Instruction.decodeAs .standard .writeActions).run (.start bs)
                = (.ok (.writeActions as), ⟨bs.length, []⟩))
      ∧ ∃ bs, Record.octets (KeyedSet.run steps) = .ok bs
        ∧ (Record.ofOctets bs = .ok (KeyedSet.run steps) ↔ (KeyedSet.run steps).WellKeyed)
        ∧ (KeyedSet.empty.AllKeepKeys steps → Record.ofOctets bs = .ok (KeyedSet.run steps)) := by
  refine ⟨?_, ?_, ?_⟩
  · intro b h
    obtain ⟨hvalid, rfl⟩ := Record.checked_eq_ok_iff.1 h
    exact ⟨rfl, Bucket.travels hvalid⟩
  · intro h
    have htravels := Instruction.travels_writeActions h
    have hwrites := Instruction.writes_encode (Instruction.length_writeActions_le htravels.distinct)
    exact ⟨htravels, _, hwrites.toExcept_eq, Instruction.run_decodeAs_writeActions h⟩
  · have hiff := (KeyedSet.run steps).ofOctets_actionSet_iff
    exact ⟨_, (KeyedSet.run steps).octets_actionSet, hiff,
      fun h => hiff.2 (KeyedSet.wellKeyed_run_of_allKeepKeys h)⟩

/-- Two actions that set fields, in the order against that of their keys; and a set in which one of
    them is replaced by one that sets the same field. -/
theorem validated_actions_travel_two_fields :
    let ethertype (n : BitVec 16) : Action := .setField ⟨.ethType, n, none⟩
    let protocol : Action := .setField ⟨.ipProto, 6#8, none⟩
    let b := Bucket.select 1 [protocol, ethertype 0x0800#16]
    let steps := [.insert protocol, .insert (ethertype 0x0800#16), .replace (ethertype 0x86dd#16)]
    Record.checked b = .ok b ∧ Travels b.actions b
      ∧ (Instruction.writeActions b.actions).validate = .ok ()
      ∧ Travels b.actions (Instruction.writeActions b.actions)
      ∧ KeyedSet.empty.AllKeepKeys steps
      ∧ ∃ bs, Record.octets (KeyedSet.run steps) = .ok bs
        ∧ Record.ofOctets bs = .ok (KeyedSet.run steps) := by
  intro ethertype protocol b steps
  obtain ⟨hbucket, hinstruction, bs, hbs, -, hread⟩ :=
    validated_actions_travel b.weight b.watchPort b.watchGroup b.actions steps
  have hchecked : Record.checked b = .ok b := by decide
  have hvalid : (Instruction.writeActions b.actions).validate = .ok () := by decide
  have hold : (KeyedSet.run [.insert protocol, .insert (ethertype 0x0800#16)]).alike?
      (ethertype 0x86dd#16) = some (ethertype 0x0800#16) := by decide
  have hkeeps : KeyedSet.empty.AllKeepKeys steps := by
    refine ⟨trivial, trivial, fun old h => ?_, trivial⟩
    obtain rfl := Option.some.inj (h.symm.trans hold)
    rfl
  exact ⟨hchecked, (hbucket b hchecked).2, hvalid, (hinstruction hvalid).1, hkeeps, bs, hbs,
    hread hkeeps⟩

/-- An action that sets a field is replaced by one that sets another field, whose key then is still
    free: the set comes to hold two actions of one key, and is not read back. -/
theorem actionSet_stays_behind :
    let s : KeyedSet Action := .run [.insert (.setField ⟨.ethType, 0x0800#16, none⟩),
      .replace (.setField ⟨.ipProto, 6#8, none⟩), .insert (.setField ⟨.ipProto, 17#8, none⟩)]
    s.toList = [.setField ⟨.ipProto, 6#8, none⟩, .setField ⟨.ipProto, 17#8, none⟩]
      ∧ ∃ bs, Record.octets s = .ok bs
        ∧ (Record.ofOctets bs : Except DecodeError (KeyedSet Action))
          = .error (.duplicateKey .actionSet 0x080000190040000a) := by
  intro s
  exact ⟨by decide, _, s.octets_actionSet, by decide +kernel⟩

end OpenFlow
