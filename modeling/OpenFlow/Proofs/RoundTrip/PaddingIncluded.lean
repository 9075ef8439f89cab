import OpenFlow.Proofs.RoundTrip.Bucket
import OpenFlow.Proofs.RoundTrip.Instruction
import OpenFlow.Proofs.RoundTrip.Queue

set_option autoImplicit false

/-! # Formats whose lengths cover the padding

Lists of actions, of instructions, of buckets and of queue properties, and queues of a port: all
that is written of them is read back as it was, entries in their order, repeated ones repeated, and
masks as they were given. All that this takes is that every length fits into its sixteen bits, and
that the limits admit every list, inner ones included. -/

namespace OpenFlow

/-- What is written in a format whose lengths cover the padding is read back. -/
theorem roundTrips_paddingIncluded (limits : Limits) :
    (∀ as : List Action, LengthsFit as → limits.Admits as → RoundTrips limits as)
    ∧ (∀ is : List Instruction, LengthsFit is → limits.Admits is → RoundTrips limits is)
    ∧ (∀ bs : List Bucket, LengthsFit bs → limits.Admits bs → RoundTrips limits bs)
    ∧ (∀ ps : List QueueProperty, LengthsFit ps → limits.Admits ps → RoundTrips limits ps)
    ∧ ∀ q : PacketQueue, LengthsFit q → limits.Admits q → RoundTrips limits q := by
  refine ⟨?_, ?_, ?_, ?_, ?_⟩
  · intro as _ hlimits
    exact (Action.carriesAlone limits as hlimits.length_le).roundTrips
  · intro is hfit hlimits
    exact (Instruction.carriesAlone hfit hlimits).roundTrips
  · intro bs hfit hlimits
    exact (Bucket.carriesAlone hfit hlimits).roundTrips
  · intro ps hfit hlimits
    exact (QueueProperty.carriesAlone hfit hlimits.length_le).roundTrips
  · intro q hfit hlimits
    exact (PacketQueue.carriesAlone hfit hlimits).roundTrips

/-- Two equal instructions, each of which sets a field under a mask that its value does not keep. -/
theorem roundTrips_repeated_masked_setField :
    let set : Action := .setField ⟨.ipv4Src, 0xffffffff#32, some 0x0000ff00#32⟩
    let is : List Instruction :=
      [.applyActions [set, set, .popVlan], .applyActions [set, set, .popVlan]]
    LengthsFit is ∧ Limits.small.Admits is ∧ RoundTrips .small is := by
  intro set is
  have hfit : LengthsFit is := by decide
  have hlimits : Limits.small.Admits is := by decide
  exact ⟨hfit, hlimits, (roundTrips_paddingIncluded .small).2.1 is hfit hlimits⟩

end OpenFlow
