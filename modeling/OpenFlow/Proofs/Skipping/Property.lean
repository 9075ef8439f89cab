import OpenFlow.Proofs.Formats
import OpenFlow.Proofs.RoundTrip.TableProperty
import OpenFlow.Proofs.Skipping.Lockstep

set_option autoImplicit false

/-! # Properties hold nothing unknown

Properties of queues and tables hold numbers, data and ids. An id may name a kind that has no
decoder, but it is read as any other, so no body of a property fails for an unknown kind. -/

namespace OpenFlow

variable {α : Type}

/-- A format whose bodies recognize all they look at describes a family with nothing unknown
    inside. -/
theorem RecordFormat.describes_of_recognizes {F : RecordFormat α} {G : RecordFamily}
    {code : α → Nat} (helement : F.element = G.element) (hframing : F.framing = G.framing)
    (hknows : ∀ n, (F.layout? n).isSome = G.knows n) (hinside : ∀ r, G.unknownInside? r = none)
    (hbody : ∀ {h : Header} {layout : Layout α}, F.layout? h.code = some layout →
      (layout.body h).Recognizes fun a => code a = h.code) : F.Describes G code where
  element_eq := helement
  framing_eq := hframing
  knows_eq := hknows
  value := fun hlayout hrun => ⟨(hbody hlayout).value (Prod.ext hrun rfl), hinside _⟩
  failure := by
    intro h body layout e n hlayout hrun hunknown
    have hnone := (hbody hlayout).failure (Prod.ext hrun rfl)
    simp [hnone] at hunknown

/-! ## Queue properties -/

namespace QueueProperty

/-- What can be told of queue properties. -/
def family : RecordFamily where
  element := .queueProperty
  framing := .paddingIncluded
  knows code := (QueuePropertyKind.ofCode? code).isSome
  unknownInside? _ := none

theorem recognizes_holdingRate {k : QueuePropertyKind} (make : UInt16 → QueueProperty)
    (hmake : ∀ rate, (make rate).kind = k) (h : Header) :
    ((holdingRate make).body h).Recognizes (·.kind = k) :=
  (Decoder.recognizes_skip 4).bind fun _ _ => Decoder.recognizes_u16.map fun rate _ => hmake rate

theorem recognizes_decodeExperimenter (h : Header) :
    (decodeExperimenter h).Recognizes (·.kind = .experimenter) := by
  refine (Decoder.recognizes_skip 4).bind fun _ _ => ?_
  refine Decoder.recognizes_u32.bind fun number _ => ?_
  refine (Decoder.recognizes_skip 4).bind fun _ _ => ?_
  refine Decoder.recognizes_remainder.bind fun data _ => ?_
  by_cases haligned : data.length % alignment = 0
  · rw [dif_pos haligned]
    exact Decoder.recognizes_pure rfl
  · rw [dif_neg haligned]
    exact Decoder.recognizes_fail rfl

theorem recognizes_layout (k : QueuePropertyKind) (h : Header) :
    ((layout k).body h).Recognizes (·.kind = k) := by
  cases k with
  | minRate => exact recognizes_holdingRate minRate (fun _ => rfl) h
  | maxRate => exact recognizes_holdingRate maxRate (fun _ => rfl) h
  | experimenter => exact recognizes_decodeExperimenter h

theorem describes_family : format.Describes family (·.kind.code) := by
  refine RecordFormat.describes_of_recognizes rfl rfl ?_ (fun _ => rfl) ?_
  · intro n
    exact Option.isSome_map
  · intro h l hlayout
    obtain ⟨k, hkind, rfl⟩ := Option.map_eq_some_iff.1 hlayout
    refine (recognizes_layout k h).weaken fun p hp => ?_
    rw [hp, QueuePropertyKind.code_of_ofCode? hkind]

end QueueProperty

/-! ## Ids

Which form an id has is read off its header, so the header of an id that was read is sound. -/

theorem KindId.recognizes_decode {family : KindFamily} :
    (decode : Decoder (KindId family)).Recognizes SoundHeader := by
  refine (Decoder.recognizes_expect _).bind fun h _ => ?_
  refine Decoder.recognizes_ite (fun _ => ?_) fun hcode => ?_
  · refine Decoder.recognizes_element fun _ => ?_
    exact Decoder.recognizes_u32.bind fun _ _ => Decoder.recognizes_remainder.map fun _ _ => trivial
  · exact Decoder.recognizes_element fun _ => Decoder.recognizes_pure hcode

theorem OxmId.recognizes_decode : decode.Recognizes SoundHeader := by
  refine (Decoder.recognizes_need .oxmId 4).bind fun _ _ => ?_
  have hread : OxmHeader.read.Recognizes fun _ => True :=
    Decoder.recognizes_u32.map fun _ _ => trivial
  refine hread.ahead.bind fun h _ => ?_
  refine Decoder.recognizes_ite (fun hclass => ?_) fun hclass => ?_
  · refine (Decoder.recognizes_need .oxmId 8).bind fun _ _ => ?_
    refine (Decoder.recognizes_skip 4).bind fun _ _ => ?_
    exact Decoder.recognizes_u32.map fun _ _ => hclass
  · exact (Decoder.recognizes_skip 4).map fun _ _ => hclass

/-- Ids of every sort are read without a look at a kind. -/
theorem IdSort.recognizes_decode (limits : Limits) (s : IdSort) :
    (Record.decode limits : Decoder s.Id).Recognizes s.SoundHeader := by
  cases s with
  | instruction => exact KindId.recognizes_decode
  | table => exact Decoder.recognizes_u8.map fun _ _ => trivial
  | action => exact KindId.recognizes_decode
  | oxm => exact OxmId.recognizes_decode

/-! ## Table properties -/

namespace TableProperty

/-- What can be told of table properties. -/
def family : RecordFamily where
  element := .tableProperty
  framing := .paddingExcluded
  knows code := (TablePropertyKind.ofCode? code).isSome
  unknownInside? _ := none

theorem recognizes_listingIds (limits : Limits) (k : IdListKind) (h : Header) :
    ((listingIds limits k).body h).Recognizes fun p => p.kind = .ids k ∧ p.SoundHeaders :=
  (Decoder.recognizes_many _ rfl (IdSort.recognizes_decode limits k.sort)).map
    fun _ hids => ⟨rfl, hids⟩

theorem recognizes_experimenterLayout (miss : Bool) (h : Header) :
    ((experimenterLayout miss).body h).Recognizes
      fun p => p.kind = .experimenter miss ∧ p.SoundHeaders := by
  refine Decoder.recognizes_u32.bind fun number _ => ?_
  refine Decoder.recognizes_u32.bind fun expType _ => ?_
  exact Decoder.recognizes_remainder.map fun _ _ => ⟨rfl, trivial⟩

theorem recognizes_layout (limits : Limits) (k : TablePropertyKind) (h : Header) :
    ((layout limits k).body h).Recognizes fun p => p.kind = k ∧ p.SoundHeaders := by
  cases k with
  | ids k => exact recognizes_listingIds limits k h
  | experimenter miss => exact recognizes_experimenterLayout miss h

theorem describes_family (limits : Limits) : (format limits).Describes family (·.kind.code) := by
  refine RecordFormat.describes_of_recognizes rfl rfl ?_ (fun _ => rfl) ?_
  · intro n
    exact Option.isSome_map
  · intro h l hlayout
    obtain ⟨k, hkind, rfl⟩ := Option.map_eq_some_iff.1 hlayout
    refine (recognizes_layout limits k h).weaken fun p hp => ?_
    rw [hp.1, TablePropertyKind.code_of_ofCode? hkind]

end TableProperty

end OpenFlow
