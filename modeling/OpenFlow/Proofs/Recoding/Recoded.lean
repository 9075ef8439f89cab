import OpenFlow.Proofs.Octets.Following
import OpenFlow.Proofs.Record

set_option autoImplicit false

/-! # What is read and written again

Octets that are read and written again stay as they are, except for those that are not read into
anything: these become zero. `Recoded` says so of any octets that are read, whether or not they
were written by this library, with `Ignores` for the octets that do not count. It holds of a
structure whose decoder follows a template that its encoder fills up (`recodes_of_follows`). -/

namespace OpenFlow

open Decoder Template

variable {α : Type}

/-- The octet in a place is not read into anything: whatever is put there, reading comes to the
    same. -/
def Ignores (α : Type) [Record α] (limits : Limits) (bs : Octets) (i : Nat) : Prop :=
  ∀ x : UInt8, (Record.decode limits : Decoder α).run (.start (bs.set i x))
    = (Record.decode limits : Decoder α).run (.start bs)

/-- The octets `bs`, from which `a` was read, are `bs'` when `a` is written again. -/
structure Recoded [Record α] (limits : Limits) (bs : Octets) (a : α) (bs' : Octets) : Prop where
  octets_eq : Record.octets a = .ok bs'
  length_eq : bs'.length = bs.length
  kept : ∀ i, ¬ Ignores α limits bs i → bs'[i]? = bs[i]?
  zeroed : ∀ i < bs.length, Ignores α limits bs i → bs'[i]? = some 0
  eq_iff : bs' = bs ↔ ∀ i < bs.length, Ignores α limits bs i → bs[i]? = some 0
  /-- The octets that do not count may be changed all at once. -/
  reads_of_agree : ∀ cs : Octets, cs.length = bs.length →
    (∀ i, ¬ Ignores α limits bs i → cs[i]? = bs[i]?) →
      (Record.decode limits : Decoder α).run (.start cs) = (.ok a, ⟨cs.length, []⟩)
  reads_again : (Record.decode limits : Decoder α).run (.start bs') = (.ok a, ⟨bs'.length, []⟩)

/-- All that can be read can be written again, with zeros for what does not count. -/
def Recodes (limits : Limits) (α : Type) [Record α] : Prop :=
  ∀ (bs : Octets) (a : α) (c : Cursor),
    (Record.decode limits : Decoder α).run (.start bs) = (.ok a, c) → ∃ bs', Recoded limits bs a bs'

/-- All that can be read can be written again as it is, for everything counts. -/
def RecodesExactly (limits : Limits) (α : Type) [Record α] : Prop :=
  ∀ (bs : Octets) (a : α) (c : Cursor),
    (Record.decode limits : Decoder α).run (.start bs) = (.ok a, c) →
      Recoded limits bs a bs ∧ ∀ i < bs.length, ¬ Ignores α limits bs i

/-- The value has a template, and is written as it with zeros in the open places. -/
def Drawn [Record α] (template : α → Template) (a : α) (t : Template) : Prop :=
  t = template a ∧ (Record.encode a).Writes (template a).fill

/-! ## Sequences -/

theorem Sequence.follows_decode [Entry α] {limits : Limits} {template : α → Template}
    (h : (Record.decode limits : Decoder α).Follows anywhere (Drawn template))
    (hpos : ∀ a, template a ≠ []) :
    (Sequence.decode limits : Decoder (List α)).Follows atEnd
      (Drawn fun as => as.flatMap template) := by
  refine (h.many hpos (limits.of (Entry.resource α)) (Sequence.overfull α limits)).weaken ?_
  rintro as t ⟨ht, hwrites⟩
  refine ⟨ht, ?_⟩
  rw [fill_flatMap (fun _ => rfl) as]
  exact Encoding.writes_concat hwrites

/-! ## Open places -/

theorem Template.Fits.set {t : Template} {bs : Octets} (h : t.Fits bs) {i : Nat}
    (hi : t[i]? = some none) (x : UInt8) : t.Fits (bs.set i x) := by
  obtain ⟨hlength, hgiven⟩ := fits_iff.1 h
  refine fits_iff.2 ⟨by rw [hlength, List.length_set], fun j y hj => ?_⟩
  have hne : i ≠ j := by
    rintro rfl
    rw [hi] at hj
    cases hj
  rw [List.getElem?_set_ne hne]
  exact hgiven j y hj

theorem Template.Fits.eq_of_set {t : Template} {bs : Octets} {i : Nat} {x y : UInt8}
    (h : t.Fits (bs.set i x)) (hi : t[i]? = some (some y)) : x = y := by
  obtain ⟨hlength, hgiven⟩ := fits_iff.1 h
  have hlt : i < bs.length := by
    have := (List.getElem?_eq_some_iff.1 hi).1
    rwa [hlength, List.length_set] at this
  have hbyte := hgiven i y hi
  rw [List.getElem?_set_self hlt] at hbyte
  exact Option.some.inj hbyte

section Record

variable [Record α] {limits : Limits} {template : α → Template} {bs : Octets} {a : α} {c : Cursor}

/-- Where something was read, the octets that it is read from are those that fit its template. -/
theorem run_start_iff (h : (Record.decode limits : Decoder α).Follows atEnd (Drawn template))
    (hrun : (Record.decode limits : Decoder α).run (.start bs) = (.ok a, c)) (cs : Octets)
    (c' : Cursor) :
    (Record.decode limits : Decoder α).run (.start cs) = (.ok a, c')
      ↔ (template a).Fits cs ∧ c' = ⟨cs.length, []⟩ := by
  have hwhole (cs : Octets) (c' : Cursor)
      (hrun : (Record.decode limits : Decoder α).run (.start cs) = (.ok a, c')) :
      (template a).Fits cs ∧ ∀ ds : Octets, (template a).Fits ds →
        (Record.decode limits : Decoder α).run (.start ds) = (.ok a, ⟨ds.length, []⟩) := by
    obtain ⟨_, ds, ⟨rfl, -⟩, hds, hrest, hend, hreads⟩ := h _ _ _ hrun
    rw [List.length_eq_zero_iff.1 hend, List.append_nil] at hrest
    obtain rfl : cs = ds := hrest
    refine ⟨hds, fun es hes => ?_⟩
    have hread := hreads es [] hes rfl 0
    rwa [List.append_nil, Nat.zero_add] at hread
  constructor
  · intro hcs
    obtain ⟨hfits, hreads⟩ := hwhole cs c' hcs
    have hpair := hcs.symm.trans (hreads cs hfits)
    exact ⟨hfits, (Prod.mk.inj hpair).2⟩
  · rintro ⟨hfits, rfl⟩
    exact (hwhole bs c hrun).2 cs hfits

/-- An octet is ignored exactly if its place is open in the template of what is read. -/
theorem ignores_iff_open (h : (Record.decode limits : Decoder α).Follows atEnd (Drawn template))
    (hrun : (Record.decode limits : Decoder α).run (.start bs) = (.ok a, c)) {i : Nat}
    (hi : i < bs.length) : Ignores α limits bs i ↔ (template a)[i]? = some none := by
  obtain ⟨hbs, rfl⟩ := (run_start_iff h hrun bs c).1 hrun
  constructor
  · intro hignored
    have hlt : i < (template a).length := hbs.length_eq ▸ hi
    cases hplace : (template a)[i] with
    | none => rw [List.getElem?_eq_getElem hlt, hplace]
    | some x =>
      -- another octet in its place would be read into another value
      have hgiven : (template a)[i]? = some (some x) := by
        rw [List.getElem?_eq_getElem hlt, hplace]
      have hother : (template a).Fits (bs.set i (x + 1)) :=
        ((run_start_iff h hrun _ _).1 ((hignored (x + 1)).trans hrun)).1
      have hsame : x + 1 = x := hother.eq_of_set hgiven
      exact absurd hsame (by simp)
  · intro hopen x
    refine Eq.trans ?_ hrun.symm
    refine (run_start_iff h hrun _ _).2 ⟨hbs.set hopen x, ?_⟩
    rw [List.length_set]

theorem lt_length_of_not_ignores {i : Nat} (hi : ¬ Ignores α limits bs i) : i < bs.length := by
  by_contra hle
  -- there is nothing to replace past the end
  refine hi fun x => ?_
  rw [List.set_eq_of_length_le (Nat.le_of_not_lt hle)]

/-- An octet that is not ignored is given by the template. -/
theorem given_of_not_ignores
    (h : (Record.decode limits : Decoder α).Follows atEnd (Drawn template))
    (hrun : (Record.decode limits : Decoder α).run (.start bs) = (.ok a, c)) {i : Nat}
    (hi : ¬ Ignores α limits bs i) :
    ∃ x, (template a)[i]? = some (some x) ∧ bs[i]? = some x := by
  have hlt : i < bs.length := lt_length_of_not_ignores hi
  obtain ⟨hbs, -⟩ := (run_start_iff h hrun bs c).1 hrun
  obtain ⟨hlength, hgiven⟩ := fits_iff.1 hbs
  have hplace : i < (template a).length := hlength ▸ hlt
  rw [ignores_iff_open h hrun hlt, List.getElem?_eq_getElem hplace] at hi
  cases hx : (template a)[i] with
  | none => exact absurd (congrArg some hx) hi
  | some x =>
    have hsome : (template a)[i]? = some (some x) := by
      rw [List.getElem?_eq_getElem hplace, hx]
    exact ⟨x, hsome, hgiven i x hsome⟩

/-- A structure that is read up to the end, along templates that its encoder fills up. -/
theorem recodes_of_follows
    (h : (Record.decode limits : Decoder α).Follows atEnd (Drawn template)) :
    Recodes limits α := by
  intro bs a c hrun
  obtain ⟨_, _, ⟨rfl, hwrites⟩, -⟩ := h _ _ _ hrun
  obtain ⟨hbs, -⟩ := (run_start_iff h hrun bs c).1 hrun
  have hlength : (template a).length = bs.length := hbs.length_eq
  refine ⟨(template a).fill, ?_, ?_, ?_, ?_, ?_, ?_, ?_⟩
  · exact hwrites.toExcept_eq
  · rw [length_fill, hlength]
  · intro i hi
    obtain ⟨x, hplace, hbyte⟩ := given_of_not_ignores h hrun hi
    rw [getElem?_fill, hplace, hbyte]
    rfl
  · intro i hlt hi
    rw [getElem?_fill, (ignores_iff_open h hrun hlt).1 hi]
    rfl
  · rw [hbs.fill_eq_iff]
    constructor
    · intro hzero i hlt hi
      exact hzero i ((ignores_iff_open h hrun hlt).1 hi)
    · intro hzero i hopen
      have hlt : i < bs.length := hlength ▸ (List.getElem?_eq_some_iff.1 hopen).1
      exact hzero i hlt ((ignores_iff_open h hrun hlt).2 hopen)
  · intro cs hcs hagree
    refine (run_start_iff h hrun cs _).2 ⟨fits_iff.2 ⟨hlength.trans hcs.symm, ?_⟩, rfl⟩
    intro i x hplace
    have hlt : i < bs.length := hlength ▸ (List.getElem?_eq_some_iff.1 hplace).1
    have hcounts : ¬ Ignores α limits bs i := by
      rw [ignores_iff_open h hrun hlt, hplace]
      simp
    rw [hagree i hcounts]
    exact (fits_iff.1 hbs).2 i x hplace
  · exact (run_start_iff h hrun _ _).2 ⟨fits_fill _, rfl⟩

/-- A structure whose templates have no open places. -/
theorem recodesExactly_of_follows (octets : α → Octets)
    (h : (Record.decode limits : Decoder α).Follows atEnd (Drawn fun a => exact (octets a))) :
    RecodesExactly limits α := by
  intro bs a c hrun
  have hnone (i : Nat) (hi : i < bs.length) : ¬ Ignores α limits bs i := by
    rw [ignores_iff_open h hrun hi, exact, List.getElem?_map]
    cases (octets a)[i]? <;> simp
  obtain ⟨bs', hrecoded⟩ := recodes_of_follows h bs a c hrun
  obtain rfl : bs' = bs := hrecoded.eq_iff.2 fun i hi hignored => absurd hignored (hnone i hi)
  exact ⟨hrecoded, hnone⟩

end Record

end OpenFlow
