import OpenFlow.Scan
import OpenFlow.Proofs.Octets.Known

set_option autoImplicit false

/-! # What stepping over unknown records leaves out

A `RecordFamily` tells of a record, from its octets alone, whether it has a decoder and whether
something without a decoder stands inside it. `Explains` accounts for the records of a buffer: those
with a decoder and nothing unknown inside come to an entry each, and all others are reported. So
only records without a decoder are left out, as they should be, exactly if no other record has
something unknown inside (`Explains.onlyUnknownSkipped_iff`). -/

namespace OpenFlow

variable {α : Type}

/-! ## Families -/

/-- What can be told of the records of a family without decoding them. -/
structure RecordFamily where
  element : Element
  framing : Framing
  /-- Records of a kind code have a decoder. -/
  knows : Nat → Bool
  /-- The code of what has no decoder inside a record that has one itself. -/
  unknownInside? : RawRecord → Option Nat

/-- Where the body of a record begins. -/
def RawRecord.inside (r : RawRecord) : Cursor := ⟨headerLength, r.body⟩

namespace RecordFamily

/-- The code of what has no decoder: the record itself, or something inside it. -/
def unknown? (G : RecordFamily) (r : RawRecord) : Option Nat :=
  if G.knows r.header.code then G.unknownInside? r else some r.header.code

/-- The records of a buffer, found without decoding them. -/
def records (G : RecordFamily) (bs : Octets) : Except DecodeError (List RawRecord) :=
  Scan.records G.element G.framing .unlimited bs

/-- The first code of what has no decoder among the records from `c` on, up to one that is
    malformed. -/
def firstUnknown? (G : RecordFamily) (c : Cursor) : Option Nat :=
  (Decoder.leading (RawRecord.decode G.element G.framing) c).findSome? G.unknown?

/-- The records `rs` come to entries of the kinds `codes` where they have a decoder, one for each,
    and are reported as `skipped` where they have none. -/
structure OnlyUnknownSkipped (G : RecordFamily) (rs : List RawRecord) (codes skipped : List Nat) :
    Prop where
  codes_eq : codes = (rs.filter fun r => G.knows r.header.code).map (·.header.code)
  skipped_eq : skipped = (rs.filter fun r => !G.knows r.header.code).map (·.header.code)

/-- What the records `rs` come to. -/
structure Explains (G : RecordFamily) (rs : List RawRecord) (codes skipped : List Nat) :
    Prop where
  codes_eq : codes = (rs.filter fun r => (G.unknown? r).isNone).map (·.header.code)
  skipped_eq : skipped = rs.filterMap G.unknown?

section Unknown

variable {G : RecordFamily} {r : RawRecord}

theorem unknown?_of_known (h : G.knows r.header.code = true) :
    G.unknown? r = G.unknownInside? r := if_pos h

theorem unknown?_of_unknown (h : G.knows r.header.code = false) :
    G.unknown? r = some r.header.code := if_neg (ne_true_of_eq_false h)

theorem known_of_unknown?_isNone (h : (G.unknown? r).isNone = true) :
    G.knows r.header.code = true := by
  by_contra hunknown
  rw [unknown?_of_unknown (eq_false_of_ne_true hunknown)] at h
  simp at h

/-- Where nothing stands inside known records, those that are reported are those not known. -/
theorem filterMap_unknown? {rs : List RawRecord}
    (h : ∀ r ∈ rs, G.knows r.header.code = true → G.unknownInside? r = none) :
    rs.filterMap G.unknown?
      = (rs.filter fun r => !G.knows r.header.code).map (·.header.code) := by
  induction rs with
  | nil => rfl
  | cons r rs ih =>
    have hrest := ih fun r' hr' => h r' (List.mem_cons_of_mem r hr')
    cases hknown : G.knows r.header.code with
    | false =>
      rw [List.filterMap_cons_some (unknown?_of_unknown hknown), hrest,
        List.filter_cons_of_pos (by rw [hknown]; rfl)]
      rfl
    | true =>
      have hnone : G.unknown? r = none :=
        (unknown?_of_known hknown).trans (h r List.mem_cons_self hknown)
      rw [List.filterMap_cons_none hnone, hrest,
        List.filter_cons_of_neg (by rw [hknown]; simp)]

/-- The records that come to an entry are known; they are all of those just if none of those holds
    anything unknown. -/
theorem filter_isNone_eq (rs : List RawRecord) :
    (rs.filter fun r => (G.unknown? r).isNone)
      = (rs.filter fun r => G.knows r.header.code).filter fun r => (G.unknown? r).isNone := by
  rw [List.filter_filter]
  -- records that are not known come to no entry
  refine List.filter_congr fun r _ => ?_
  cases hnone : (G.unknown? r).isNone with
  | false => rfl
  | true => exact (known_of_unknown?_isNone hnone).symm

theorem Explains.onlyUnknownSkipped_iff {rs : List RawRecord} {codes skipped : List Nat}
    (h : G.Explains rs codes skipped) : G.OnlyUnknownSkipped rs codes skipped
      ↔ ∀ r ∈ rs, G.knows r.header.code = true → G.unknownInside? r = none := by
  constructor
  · -- as many entries as known records leave no known record out
    intro honly r hr hknown
    have hlength := congrArg List.length (h.codes_eq.symm.trans honly.codes_eq)
    rw [List.length_map, List.length_map, filter_isNone_eq,
      List.length_filter_eq_length_iff] at hlength
    have hnone := hlength r (List.mem_filter.2 ⟨hr, hknown⟩)
    rw [unknown?_of_known hknown] at hnone
    exact Option.isNone_iff_eq_none.1 hnone
  · intro hinside
    have hall : ∀ r ∈ rs.filter fun r => G.knows r.header.code,
        (G.unknown? r).isNone = true := by
      intro r hr
      obtain ⟨hmem, hknown⟩ := List.mem_filter.1 hr
      rw [unknown?_of_known hknown, hinside r hmem hknown]
      rfl
    refine ⟨?_, ?_⟩
    · rw [h.codes_eq, filter_isNone_eq, List.filter_eq_self.2 hall]
    · rw [h.skipped_eq, filterMap_unknown? hinside]

end Unknown

end RecordFamily

/-! ## Sorted records -/

/-- What is read of a record: an entry of its kind, or the code of what has no decoder. -/
inductive RecordFamily.Sorts (G : RecordFamily) (code : α → Nat) :
    RawRecord → Except Nat α → Prop where
  | entry {r : RawRecord} {a : α} (hknown : G.unknown? r = none)
      (hcode : code a = r.header.code) : Sorts G code r (.ok a)
  | unknown {r : RawRecord} {n : Nat} (hunknown : G.unknown? r = some n) :
      Sorts G code r (.error n)

/-- The sides that a list of records is sorted to. -/
theorem RecordFamily.explains_of_sorts {G : RecordFamily} {code : α → Nat} {rs : List RawRecord}
    {xs : List (Except Nat α)} (h : List.Forall₂ (G.Sorts code) rs xs) :
    G.Explains rs ((xs.filterMap Except.toOption).map code)
      (xs.filterMap Decoder.unread?) := by
  induction h with
  | nil => exact ⟨rfl, rfl⟩
  | @cons r x rs xs hsort _ ih =>
    obtain ⟨hcodes, hskipped⟩ := ih
    cases hsort with
    | @entry a hknown hcode =>
      refine ⟨?_, ?_⟩
      · rw [List.filterMap_cons_some (by rfl : _ = some a), List.map_cons, hcodes, hcode,
          List.filter_cons_of_pos (by rw [hknown]; rfl), List.map_cons]
      · rw [List.filterMap_cons_none (by rfl), List.filterMap_cons_none hknown, hskipped]
    | @unknown n hunknown =>
      refine ⟨?_, ?_⟩
      · rw [List.filterMap_cons_none (by rfl), hcodes,
          List.filter_cons_of_neg (by rw [hunknown]; simp)]
      · rw [List.filterMap_cons_some (by rfl : _ = some n), List.filterMap_cons_some hunknown,
          hskipped]

end OpenFlow
