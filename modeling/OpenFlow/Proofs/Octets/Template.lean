import Mathlib.Data.List.Forall2
import OpenFlow.Octets.BigEndian

set_option autoImplicit false

/-! # Octets with gaps

A `Template` is a run of octets in which some places are left open: those of padding, which
nothing is read from. It fits every run of octets that has the given ones in their places. Of those
that it fits, `Template.fill` is the one that a writer picks, with zeros in the open places. -/

namespace OpenFlow

/-- The octets of a record, without those that do not count. -/
abbrev Template : Type := List (Option UInt8)

namespace Template

/-- Octets that all count. -/
def exact (bs : Octets) : Template := bs.map some

/-- `n` places that are open. -/
def blanks (n : Nat) : Template := List.replicate n none

/-- An octet may stand in a place. -/
def Allows (place : Option UInt8) (b : UInt8) : Prop := ∀ x ∈ place, x = b

/-- The octets have the places that the template has, and the octets that it gives. -/
def Fits (t : Template) (bs : Octets) : Prop := List.Forall₂ Allows t bs

/-- The octets of the template, with zeros in the open places. -/
def fill (t : Template) : Octets := t.map (·.getD 0)

/-! ## Lengths -/

@[simp] theorem length_exact (bs : Octets) : (exact bs).length = bs.length := List.length_map _

@[simp] theorem length_blanks (n : Nat) : (blanks n).length = n := List.length_replicate

@[simp] theorem length_fill (t : Template) : t.fill.length = t.length := List.length_map _

theorem Fits.length_eq {t : Template} {bs : Octets} (h : t.Fits bs) : t.length = bs.length :=
  List.Forall₂.length_eq h

/-! ## Filling -/

@[simp] theorem fill_append (t u : Template) : (t ++ u).fill = t.fill ++ u.fill :=
  List.map_append

@[simp] theorem fill_exact (bs : Octets) : (exact bs).fill = bs := by
  induction bs with
  | nil => rfl
  | cons b bs ih => exact congrArg (b :: ·) ih

@[simp] theorem fill_blanks (n : Nat) : (blanks n).fill = zeros n := List.map_replicate

theorem fill_flatMap {α : Type} {template : α → Template} {octets : α → Octets}
    (h : ∀ a, (template a).fill = octets a) (as : List α) :
    fill (as.flatMap template) = as.flatMap octets := by
  induction as with
  | nil => rfl
  | cons a as ih => rw [List.flatMap_cons, fill_append, h, ih, List.flatMap_cons]

theorem exact_flatMap {α : Type} (octets : α → Octets) (as : List α) :
    exact (as.flatMap octets) = as.flatMap fun a => exact (octets a) :=
  List.map_flatMap

/-! ## Fitting -/

theorem fits_nil_iff {bs : Octets} : Fits [] bs ↔ bs = [] := List.forall₂_nil_left_iff

theorem Fits.append {t u : Template} {bs cs : Octets} (ht : t.Fits bs) (hu : u.Fits cs) :
    (t ++ u).Fits (bs ++ cs) :=
  List.rel_append ht hu

/-- What fits two templates in a row comes apart where they do. -/
theorem fits_append_iff {t u : Template} {bs : Octets} :
    (t ++ u).Fits bs ↔ ∃ cs ds, bs = cs ++ ds ∧ t.Fits cs ∧ u.Fits ds := by
  constructor
  · intro h
    refine ⟨bs.take t.length, bs.drop t.length, (List.take_append_drop _ _).symm, ?_, ?_⟩
    · have htake := List.forall₂_take t.length h
      rwa [List.take_left] at htake
    · have hdrop := List.forall₂_drop t.length h
      rwa [List.drop_left] at hdrop
  · rintro ⟨cs, ds, rfl, ht, hu⟩
    exact ht.append hu

theorem fits_exact_iff {bs cs : Octets} : (exact bs).Fits cs ↔ cs = bs := by
  constructor
  · intro h
    induction bs generalizing cs with
    | nil => exact fits_nil_iff.1 h
    | cons b bs ih =>
      obtain ⟨c, cs, hb, hbs, rfl⟩ := List.forall₂_cons_left_iff.1 h
      rw [ih hbs, ← hb b rfl]
  · rintro rfl
    refine List.forall₂_map_left_iff.2 (List.forall₂_same.2 fun b _ x hx => ?_)
    exact (Option.some.inj hx).symm

theorem fits_blanks_iff {n : Nat} {bs : Octets} : (blanks n).Fits bs ↔ bs.length = n := by
  constructor
  · intro h
    rw [← h.length_eq, length_blanks]
  · rintro rfl
    induction bs with
    | nil => exact List.Forall₂.nil
    | cons b bs ih => exact .cons (fun x hx => nomatch hx) ih

theorem fits_fill (t : Template) : t.Fits t.fill := by
  induction t with
  | nil => exact List.Forall₂.nil
  | cons place t ih =>
    refine .cons (fun x hx => ?_) ih
    rw [Option.mem_def.1 hx]
    rfl

/-! ## Place by place -/

theorem fits_iff {t : Template} {bs : Octets} :
    t.Fits bs ↔ t.length = bs.length ∧ ∀ (i : Nat) (x : UInt8), t[i]? = some (some x) →
      bs[i]? = some x := by
  rw [Fits, List.forall₂_iff_get]
  refine and_congr_right fun hlength => ?_
  constructor
  · intro h i x hi
    obtain ⟨ht, hx⟩ := List.getElem?_eq_some_iff.1 hi
    have hb : i < bs.length := hlength ▸ ht
    have hallows := h i ht hb
    rw [List.get_eq_getElem, List.get_eq_getElem, hx] at hallows
    rw [List.getElem?_eq_getElem hb, hallows x rfl]
  · intro h i ht hb x hx
    rw [List.get_eq_getElem] at hx
    have hplace : t[i]? = some (some x) := by
      rw [List.getElem?_eq_getElem ht, Option.mem_def.1 hx]
    have hbyte := h i x hplace
    rw [List.getElem?_eq_getElem hb] at hbyte
    exact (Option.some.inj hbyte).symm

theorem getElem?_fill (t : Template) (i : Nat) : t.fill[i]? = t[i]?.map (·.getD 0) :=
  List.getElem?_map

/-- Octets are the filled template exactly if they have zeros in the open places. -/
theorem Fits.fill_eq_iff {t : Template} {bs : Octets} (h : t.Fits bs) :
    t.fill = bs ↔ ∀ i : Nat, t[i]? = some none → bs[i]? = some 0 := by
  obtain ⟨hlength, hgiven⟩ := fits_iff.1 h
  constructor
  · rintro rfl i hi
    rw [getElem?_fill, hi]
    rfl
  · intro hzero
    refine List.ext_getElem? fun i => ?_
    rw [getElem?_fill]
    cases hi : t[i]? with
    | none =>
      have hle : t.length ≤ i := List.getElem?_eq_none_iff.1 hi
      exact (List.getElem?_eq_none (hlength ▸ hle)).symm
    | some place =>
      cases place with
      | none => exact (hzero i hi).symm
      | some x => exact (hgiven i x hi).symm

end Template

end OpenFlow
