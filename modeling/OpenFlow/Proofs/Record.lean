import OpenFlow.Sequence
import OpenFlow.Proofs.Octets.Walk
import OpenFlow.Proofs.Octets.Writing

set_option autoImplicit false

/-! # Records that survive being written and read

`Carries limits bs a` says that the octets `bs` carry the record `a`: it is written as `bs`, which
are as many octets as it says that it has, and is read back from them whatever comes next. A
sequence of records that are carried is carried too, as long as nothing comes after it
(`Sequence.carriesAlone`).

What may stand in the way is told by `Composite`: the sixteen-bit length fields in a record, which
have to hold what is written into them, and the collections in it, which limits bound. -/

namespace OpenFlow

variable {α : Type}

/-! ## What bounds the size of a record -/

/-- A record with its length fields and its collections, those of the records in it included. -/
class Composite (α : Type) where
  /-- What each sixteen-bit length field has to hold. -/
  lengthFields : α → List Nat
  /-- How many entries each collection has, and what bounds their number. -/
  collections : α → List (Resource × Nat)

/-- Each sixteen-bit length field holds what is written into it. -/
def LengthsFit [Composite α] (a : α) : Prop := ∀ n ∈ Composite.lengthFields a, n ≤ 0xffff

instance [Composite α] (a : α) : Decidable (LengthsFit a) :=
  inferInstanceAs (Decidable (∀ n ∈ Composite.lengthFields a, n ≤ 0xffff))

/-- No collection has more entries than the limits allow. -/
def Limits.Admits [Composite α] (limits : Limits) (a : α) : Prop :=
  ∀ collection ∈ Composite.collections a, collection.2 ≤ limits.of collection.1

instance [Composite α] (limits : Limits) (a : α) : Decidable (limits.Admits a) :=
  inferInstanceAs (Decidable (∀ collection ∈ Composite.collections a,
    collection.2 ≤ limits.of collection.1))

/-- A sequence is a collection itself, and holds the length fields and collections of its
    entries. -/
instance [Entry α] [Composite α] : Composite (List α) where
  lengthFields as := as.flatMap Composite.lengthFields
  collections as := (Entry.resource α, as.length) :: as.flatMap Composite.collections

section Sequences

variable [Entry α] [Composite α]

theorem LengthsFit.of_mem {as : List α} (h : LengthsFit as) {a : α} (ha : a ∈ as) :
    LengthsFit a :=
  fun n hn => h n (List.mem_flatMap.2 ⟨a, ha, hn⟩)

theorem lengthsFit_cons {a : α} {as : List α} :
    LengthsFit (a :: as) ↔ LengthsFit a ∧ LengthsFit as := by
  show (∀ n ∈ (a :: as).flatMap Composite.lengthFields, n ≤ 0xffff) ↔ _
  rw [List.flatMap_cons, List.forall_mem_append]
  exact Iff.rfl

theorem Limits.Admits.of_mem {limits : Limits} {as : List α} (h : limits.Admits as) {a : α}
    (ha : a ∈ as) : limits.Admits a :=
  fun collection hc => h collection (List.mem_cons_of_mem _ (List.mem_flatMap.2 ⟨a, ha, hc⟩))

theorem Limits.admits_iff {limits : Limits} {as : List α} :
    limits.Admits as ↔ as.length ≤ limits.of (Entry.resource α) ∧ ∀ a ∈ as, limits.Admits a := by
  unfold Limits.Admits
  rw [show Composite.collections as = (Entry.resource α, as.length)
    :: as.flatMap Composite.collections from rfl, List.forall_mem_cons]
  refine and_congr_right fun _ => ?_
  simp only [List.mem_flatMap]
  exact ⟨fun h a ha collection hc => h collection ⟨a, ha, hc⟩,
    fun h collection ⟨a, ha, hc⟩ => h a ha collection hc⟩

theorem Limits.Admits.length_le {limits : Limits} {as : List α} (h : limits.Admits as) :
    as.length ≤ limits.of (Entry.resource α) :=
  h (Entry.resource α, as.length) List.mem_cons_self

end Sequences

/-! ## Round trips -/

/-- Writing a record succeeds, and reading what was written gives the record back as it was and
    leaves no octet. -/
def RoundTrips [Record α] (limits : Limits) (a : α) : Prop :=
  ∃ bs, Record.octets a = .ok bs
    ∧ (Record.decode limits : Decoder α).run (.start bs) = (.ok a, ⟨bs.length, []⟩)

/-- A record that is written as `bs`, and read back from there whatever comes next. -/
structure Carries [Record α] (limits : Limits) (bs : Octets) (a : α) : Prop where
  writes : (Record.encode a).Writes bs
  length_eq : bs.length = Record.length a
  reads : (Record.decode limits : Decoder α).Reads bs a

/-- A record that is written as `bs`, and read back from there if nothing comes next. -/
structure CarriesAlone [Record α] (limits : Limits) (bs : Octets) (a : α) : Prop where
  writes : (Record.encode a).Writes bs
  length_eq : bs.length = Record.length a
  reads : (Record.decode limits : Decoder α).ReadsBefore [] bs a

theorem Carries.alone [Record α] {limits : Limits} {bs : Octets} {a : α}
    (h : Carries limits bs a) : CarriesAlone limits bs a :=
  ⟨h.writes, h.length_eq, h.reads []⟩

theorem CarriesAlone.roundTrips [Record α] {limits : Limits} {bs : Octets} {a : α}
    (h : CarriesAlone limits bs a) : RoundTrips limits a :=
  ⟨bs, h.writes.toExcept_eq, h.reads.run_start⟩

/-- Reading all the octets at once gives the record. -/
theorem CarriesAlone.ofOctetsWithin_eq [Record α] {limits : Limits} {bs : Octets} {a : α}
    (h : CarriesAlone limits bs a) : Record.ofOctetsWithin limits bs = .ok a := by
  unfold Record.ofOctetsWithin
  rw [h.reads.run_start]
  rfl

theorem Record.ofOctetsWithin_of_error [Record α] {limits : Limits} {bs : Octets}
    {e : DecodeError} {c : Cursor}
    (h : (Record.decode limits : Decoder α).run (.start bs) = (.error e, c)) :
    (Record.ofOctetsWithin limits bs : Except DecodeError α) = .error e := by
  unfold Record.ofOctetsWithin
  rw [h]

theorem Record.ofOctetsWithin_eq_ok_iff [Record α] {limits : Limits} {bs : Octets} {a : α} :
    Record.ofOctetsWithin limits bs = .ok a ↔
      ∃ c, (Record.decode limits : Decoder α).run (.start bs) = (.ok a, c) ∧ c.rest = [] := by
  unfold Record.ofOctetsWithin
  constructor
  · intro h
    rcases hrun : (Record.decode limits : Decoder α).run (.start bs) with ⟨e | a', c⟩
    · rw [hrun] at h
      cases h
    · rw [hrun] at h
      by_cases hend : c.isEmpty = true
      · obtain rfl := Except.ok.inj ((if_pos hend).symm.trans h)
        exact ⟨c, rfl, (Decoder.isEmpty_iff c).1 hend⟩
      · cases (if_neg hend).symm.trans h
  · rintro ⟨c, hrun, hend⟩
    rw [hrun]
    exact if_pos ((Decoder.isEmpty_iff c).2 hend)

/-! ## Sequences -/

namespace Sequence

section Lengths

variable [Record α]

theorem length_cons (a : α) (as : List α) :
    Sequence.length (a :: as) = Record.length a + Sequence.length as := rfl

/-- Entries that stand back to back are as long as the sequence says. -/
theorem length_flatMap {octets : α → Octets} {as : List α}
    (h : ∀ a ∈ as, (octets a).length = Record.length a) :
    (as.flatMap octets).length = Sequence.length as := by
  induction as with
  | nil => rfl
  | cons a as ih =>
    obtain ⟨ha, has⟩ := List.forall_mem_cons.1 h
    rw [List.flatMap_cons, List.length_append, length_cons, ha, ih has]

theorem length_le_of_forall {as : List α} {n : Nat} (h : ∀ a ∈ as, Record.length a ≤ n) :
    Sequence.length as ≤ as.length * n := by
  induction as with
  | nil => exact Nat.zero_le _
  | cons a as ih =>
    obtain ⟨ha, has⟩ := List.forall_mem_cons.1 h
    have hrest := ih has
    rw [length_cons, List.length_cons, Nat.succ_mul]
    omega

/-- No entry is longer than the sequence. -/
theorem le_length_of_mem {as : List α} {a : α} (ha : a ∈ as) :
    Record.length a ≤ Sequence.length as := by
  induction ha with
  | head as => exact Nat.le_add_right _ _
  | tail b _ ih => exact Nat.le_trans ih (Nat.le_add_left _ _)

end Lengths

/-- Entries that are carried, and each by an octet at least, make a sequence that is carried. -/
theorem carriesAlone [Entry α] {limits : Limits} {octets : α → Octets} {as : List α}
    (h : ∀ a ∈ as, Carries limits (octets a) a) (hpos : ∀ a ∈ as, octets a ≠ [])
    (hbound : as.length ≤ limits.of (Entry.resource α)) :
    CarriesAlone limits (as.flatMap octets) as := by
  refine ⟨?_, ?_, ?_⟩
  · exact Encoding.writes_concat fun a ha => (h a ha).writes
  · exact length_flatMap fun a ha => (h a ha).length_eq
  · intro pos
    have hpass := Decoder.Pass.of_reads (fun a ha => (h a ha).reads) hpos pos []
    exact hpass.run_many rfl hbound

end Sequence

end OpenFlow
