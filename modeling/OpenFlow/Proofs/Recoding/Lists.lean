import OpenFlow.Proofs.Recoding.Instruction
import OpenFlow.Proofs.Recoding.Property

set_option autoImplicit false

/-! # Writing again changes nothing that counts

Whatever octets are accepted as a list of actions, instructions, buckets, queue properties or table
properties, writing the list again gives as many octets, with zeros for those that reading ignores
and all others as they were, and reading these gives the same list. Of a list of match fields no
octet is ignored, so it is written again as it was. -/

namespace OpenFlow

/-- Every list that can be read can be written again, with zeros for the octets that do not
    count. -/
theorem recodes_lists (limits : Limits) :
    Recodes limits (List Action) ∧ Recodes limits (List Instruction)
      ∧ Recodes limits (List Bucket) ∧ Recodes limits (List QueueProperty)
      ∧ Recodes limits (List TableProperty) ∧ RecodesExactly limits (List Field) := by
  refine ⟨?_, ?_, ?_, ?_, ?_, ?_⟩
  · exact recodes_of_follows (Action.follows_sequence limits)
  · exact Instruction.recodes limits
  · exact Bucket.recodes limits
  · exact QueueProperty.recodes limits
  · exact TableProperty.recodes limits
  · exact Field.recodesExactly limits

/-- An instruction with an action inside, both with filler other than zeros. -/
theorem recodes_nonzero_filler :
    let bs : Octets := [0, 4, 0, 16, 1, 2, 3, 4, 0, 18, 0, 8, 5, 6, 7, 8]
    let is : List Instruction := [.applyActions [.popVlan]]
    (Record.decode .standard : Decoder (List Instruction)).run (.start bs) = (.ok is, ⟨16, []⟩)
      ∧ Recoded .standard bs is [0, 4, 0, 16, 0, 0, 0, 0, 0, 18, 0, 8, 0, 0, 0, 0] := by
  intro bs is
  have hrun : (Record.decode .standard : Decoder (List Instruction)).run (.start bs)
      = (.ok is, ⟨16, []⟩) := by rfl
  obtain ⟨bs', hrecoded⟩ := (recodes_lists .standard).2.1 bs is _ hrun
  have hoctets : Record.octets is
      = .ok [0, 4, 0, 16, 0, 0, 0, 0, 0, 18, 0, 8, 0, 0, 0, 0] := by rfl
  obtain rfl := Except.ok.inj (hoctets.symm.trans hrecoded.octets_eq)
  exact ⟨hrun, hrecoded⟩

end OpenFlow
