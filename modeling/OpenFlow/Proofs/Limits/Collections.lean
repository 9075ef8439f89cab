import OpenFlow.Match
import OpenFlow.Proofs.KeyedSet.Reading
import OpenFlow.Proofs.Octets.Restricting

set_option autoImplicit false

/-! # Collections under limits

`RestrictedByLimits α` says that lower limits let through what higher ones let through and the lower
ones admit, and nothing else. The lower limits need not be lower: it is enough that the higher ones
allow as many entries as there can be, and there are no more than octets (`Limits.LeUpTo`). If it is
so of entries, it is so of sequences of them and of sets. -/

namespace OpenFlow

open Decoder

variable {α : Type}

/-! ## Comparing limits -/

namespace Limits

/-- The higher limits allow what the lower ones do, where the numbers are at most `size`. -/
def LeUpTo (size : Nat) (low high : Limits) : Prop := ∀ r, min (low.of r) size ≤ high.of r

theorem leUpTo_of_le {low high : Limits} (h : ∀ r, low.of r ≤ high.of r) (size : Nat) :
    LeUpTo size low high :=
  fun r => Nat.le_trans (Nat.min_le_left _ _) (h r)

/-- No bounds allow as many of everything as there can be. -/
theorem leUpTo_unlimited (limits : Limits) : LeUpTo unbounded limits unlimited :=
  fun _ => Nat.min_le_right _ _

end Limits

/-- Of what is read under higher limits, that is read under lower ones which these admit. -/
def RestrictedByLimits (α : Type) [Record α] [Composite α] : Prop :=
  ∀ (size : Nat) (low high : Limits), low.LeUpTo size high →
    Restricts size (Record.decode low : Decoder α) (Record.decode high) low.Admits

/-! ## Sequences -/

/-- Sequences of entries that hold no collections themselves, or whose own are restricted. -/
theorem Sequence.restricts_decode [Entry α] {size : Nat} {low high : Limits} {P : α → Prop}
    (hentry : Restricts size (Record.decode low : Decoder α) (Record.decode high) P)
    (hconsumes : ∀ limits, (Record.decode limits : Decoder α).Consumes)
    (hlimits : low.LeUpTo size high) :
    Restricts size (Sequence.decode low : Decoder (List α)) (Sequence.decode high)
      fun as => as.length ≤ low.of (Entry.resource α) ∧ ∀ a ∈ as, P a :=
  hentry.many (hconsumes low) (hconsumes high) (hlimits _) _ _

theorem RestrictedByLimits.list [Entry α] [Composite α] (h : RestrictedByLimits α)
    (hconsumes : ∀ limits, (Record.decode limits : Decoder α).Consumes) :
    RestrictedByLimits (List α) := by
  intro size low high hlimits
  refine (Sequence.restricts_decode (h size low high hlimits) hconsumes hlimits).congr fun as => ?_
  exact Limits.admits_iff.symm

/-! ## Sets -/

namespace KeyedSet

variable [Keyed α] [Composite α]

/-- A set holds the collections that the sequence of its entries holds. -/
instance : Composite (KeyedSet α) where
  lengthFields s := Composite.lengthFields s.toList
  collections s := Composite.collections s.toList

/-- A set of a list of different keys is admitted if the list is. -/
theorem admits_ofList_iff {limits : Limits} {as : List α} (h : (as.map Keyed.key).Nodup) :
    limits.Admits (ofList as) ↔ limits.Admits as := by
  have hperm := toList_ofList_perm h
  show limits.Admits (ofList as).toList ↔ limits.Admits as
  rw [Limits.admits_iff, Limits.admits_iff, hperm.length_eq]
  simp only [hperm.mem_iff]

/-- Entries stand under lower limits if they stand under higher ones, and the lower ones admit
    them. -/
theorem stand_iff {size : Nat} {low high : Limits} (hlimits : low.LeUpTo size high)
    (hentry : Restricts size (Record.decode low : Decoder α) (Record.decode high) low.Admits)
    {c c' : Cursor} (hsize : c.remaining ≤ size) {as : List α} :
    Stand low c as c' ↔ Stand high c as c' ∧ low.Admits as := by
  rw [Limits.admits_iff]
  constructor
  · rintro ⟨hpass, hroom, hdistinct⟩
    obtain ⟨hpass', hadmits⟩ := (hentry.pass_iff hsize).1 hpass
    have hlength : as.length ≤ size := Nat.le_trans hpass.length_le hsize
    have hroom' := Nat.le_trans (Nat.le_min.2 ⟨hroom, hlength⟩) (hlimits _)
    exact ⟨⟨hpass', hroom', hdistinct⟩, hroom, hadmits⟩
  · rintro ⟨⟨hpass, -, hdistinct⟩, hroom, hadmits⟩
    exact ⟨(hentry.pass_iff hsize).2 ⟨hpass, hadmits⟩, hroom, hdistinct⟩

end KeyedSet

theorem RestrictedByLimits.set [Keyed α] [Composite α] (h : RestrictedByLimits α)
    (hconsumes : ∀ limits, (Record.decode limits : Decoder α).Consumes) :
    RestrictedByLimits (KeyedSet α) := by
  intro size low high hlimits c c' t hsize
  have hstand (as : List α) : KeyedSet.Stand low c as c' ↔
      KeyedSet.Stand high c as c' ∧ low.Admits as :=
    KeyedSet.stand_iff hlimits (h size low high hlimits) hsize
  show (KeyedSet.decode low).run c = _ ↔ (KeyedSet.decode high).run c = _ ∧ _
  rw [KeyedSet.run_decode_ok_iff (hconsumes low), KeyedSet.run_decode_ok_iff (hconsumes high)]
  constructor
  · rintro ⟨as, hlow, hend, rfl⟩
    obtain ⟨hhigh, hadmits⟩ := (hstand as).1 hlow
    exact ⟨⟨as, hhigh, hend, rfl⟩, (KeyedSet.admits_ofList_iff hlow.distinct).2 hadmits⟩
  · rintro ⟨⟨as, hhigh, hend, rfl⟩, hadmits⟩
    have hadmits' := (KeyedSet.admits_ofList_iff hhigh.distinct).1 hadmits
    exact ⟨as, (hstand as).2 ⟨hhigh, hadmits'⟩, hend, rfl⟩

end OpenFlow
