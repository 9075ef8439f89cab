import OpenFlow.Match
import OpenFlow.Proofs.KeyedSet.Lookup
import OpenFlow.Proofs.Oxm.Header

set_option autoImplicit false

/-! # When sets of fields mean the same

Two fields mean the same when their values are equal and their masks are, a mask of all ones being
none. A wildcard means the same as no field. The two do not go together: wildcards of different
values both mean the same as no field, but not the same as each other. So `KeyedSet.same` is
reflexive and symmetric, and transitive up to such a pair of wildcards across a gap
(`KeyedSet.almostEquivalence_same`). A wildcard that keeps the rules has the value zero, which
leaves no two of them under one key: among sets of valid fields `KeyedSet.same` is an equivalence
(`KeyedSet.same_trans_of_checked`). -/

namespace OpenFlow

/-! ## Fields -/

namespace Field

theorem same_iff {f g : Field} : f.same g = true ↔ f.normal = g.normal := beq_iff_eq

theorem same_refl (f : Field) : f.same f = true := same_iff.2 rfl

theorem same_symm {f g : Field} (h : f.same g = true) : g.same f = true :=
  same_iff.2 (same_iff.1 h).symm

theorem same_trans {f g h : Field} (hfg : f.same g = true) (hgh : g.same h = true) :
    f.same h = true :=
  same_iff.2 ((same_iff.1 hfg).trans (same_iff.1 hgh))

theorem isWildcard_iff {f : Field} : f.isWildcard = true ↔ f.mask = some 0 := by
  cases hmask : f.mask with
  | none => simp [isWildcard, hmask]
  | some mask => simp [isWildcard, hmask, Value.isZero]

/-- No value is of zeros and of ones at once: every shape has octets. -/
theorem isAllOnes_zero (s : Shape) : (0 : Value s).isAllOnes = false := by
  cases s <;> decide

/-- Nothing is dropped from a wildcard. -/
theorem normal_of_isWildcard {f : Field} (h : f.isWildcard = true) : f.normal = f := by
  have hmask := isWildcard_iff.1 h
  have heffective : f.effectiveMask = f.mask := by
    rw [effectiveMask, hmask, Option.filter, isAllOnes_zero]
    rfl
  rw [normal, heffective]

theorem mask_of_normal {f : Field} {mask : Value f.kind.shape} (h : f.normal.mask = some mask) :
    f.mask = some mask :=
  (Option.filter_eq_some_iff.1 h).1

/-- What means the same as a wildcard is that wildcard. -/
theorem eq_of_same_isWildcard {f g : Field} (hsame : f.same g = true)
    (hf : f.isWildcard = true) : f = g := by
  have hnormal : f = g.normal := (normal_of_isWildcard hf).symm.trans (same_iff.1 hsame)
  subst hnormal
  -- the mask of `g` is the one that is left in its normal form
  have hmask : g.mask = some 0 := mask_of_normal (isWildcard_iff.1 hf)
  exact normal_of_isWildcard (isWildcard_iff.2 hmask)

theorem fits_of_checkMask {f : Field} {mask : Value f.kind.shape} (hcheck : f.checkMask = .ok ())
    (hmask : f.mask = some mask) : f.value.fits mask = true := by
  cases hfits : f.value.fits mask with
  | true => rfl
  | false =>
    unfold checkMask at hcheck
    rw [hmask] at hcheck
    simp only [hfits] at hcheck
    cases hmaskable : f.kind.maskable <;> simp [hmaskable] at hcheck

/-- A wildcard that keeps the rules has no bit set. -/
theorem value_of_isWildcard {f : Field} (hcheck : f.checkMask = .ok ())
    (hf : f.isWildcard = true) : f.value = 0 := by
  have hfits := fits_of_checkMask hcheck (isWildcard_iff.1 hf)
  simpa [Value.fits] using hfits

/-- A kind has one wildcard that keeps the rules. -/
theorem eq_of_isWildcard {f g : Field} (hkind : f.kind = g.kind) (hf : f.isWildcard = true)
    (hg : g.isWildcard = true) (hcf : f.checkMask = .ok ()) (hcg : g.checkMask = .ok ()) :
    f = g := by
  have hfv := value_of_isWildcard hcf hf
  have hgv := value_of_isWildcard hcg hg
  have hfm := isWildcard_iff.1 hf
  have hgm := isWildcard_iff.1 hg
  obtain ⟨k, v, m⟩ := f
  obtain ⟨k', v', m'⟩ := g
  obtain rfl : k = k' := hkind
  obtain rfl : v = v' := hfv.trans hgv.symm
  obtain rfl : m = m' := hfm.trans hgm.symm
  rfl

end Field

/-! ## Sets -/

namespace KeyedSet

section Keyed

variable {α : Type} [Keyed α]

/-- What is under a key in one set will do for what is under it in another. -/
def Answers (a b : Option α) : Prop :=
  match a, b with
  | some a, some b => Entry.same a b = true
  | some a, none => Keyed.vacuous a = true
  | none, _ => True

theorem covers_iff {s t : KeyedSet α} :
    s.covers t = true ↔ ∀ key, Answers (s.get? key) (t.get? key) := by
  rw [covers, List.all_eq_true]
  constructor
  · intro h key
    cases hs : s.get? key with
    | none => exact trivial
    | some a =>
      have hslot := h (key, a) (mem_slots_iff.2 hs)
      cases ht : t.get? key <;> simpa only [ht, Answers] using hslot
  · rintro h ⟨key, a⟩ hmem
    have hkey := h key
    rw [mem_slots_iff.1 hmem] at hkey
    cases ht : t.get? key <;> simpa only [ht, Answers] using hkey

theorem same_iff {s t : KeyedSet α} :
    s.same t = true ↔
      ∀ key, Answers (s.get? key) (t.get? key) ∧ Answers (t.get? key) (s.get? key) := by
  rw [same, Bool.and_eq_true, covers_iff, covers_iff, forall_and]

theorem same_comm (s t : KeyedSet α) : s.same t = t.same s := Bool.and_comm _ _

end Keyed

theorem same_refl (s : KeyedSet Field) : s.same s = true := by
  refine same_iff.2 fun key => ?_
  cases s.get? key with
  | none => exact ⟨trivial, trivial⟩
  | some f => exact ⟨f.same_refl, f.same_refl⟩

/-- What is under a key that another set leaves free, although it means the same, is a wildcard. -/
theorem isWildcard_of_gap {s t : KeyedSet Field} (hst : s.same t = true) {key : Nat} {f : Field}
    (hf : s.get? key = some f) (ht : t.get? key = none) : f.isWildcard = true := by
  have hkey := (same_iff.1 hst key).1
  rw [hf, ht] at hkey
  exact hkey

/-- A field that means the same as one under a key, or none if there is none. -/
theorem answers_trans {f g h : Option Field} (hfg : Answers f g) (hgf : Answers g f)
    (hgh : Answers g h)
    (hgap : ∀ a b, f = some a → g = none → h = some b → a = b) : Answers f h := by
  match f, g, h with
  | none, _, _ => exact trivial
  | some a, some b, some c => exact Field.same_trans hfg hgh
  | some a, some b, none =>
    -- `a` is the wildcard that `b` is
    have hab : b = a := Field.eq_of_same_isWildcard hgf hgh
    exact hab ▸ hgh
  | some a, none, some c =>
    obtain rfl : a = c := hgap a c rfl rfl rfl
    exact a.same_refl
  | some a, none, none => exact hfg

/-- How far a comparison of three values is an equivalence: if the first and the last mean the same
    as the one between, they mean the same, unless there is a key under which they have two
    different fields and the one between has none. -/
structure AlmostEquivalence {σ : Type} (fields : σ → KeyedSet Field) (same : σ → σ → Bool)
    (a b c : σ) : Prop where
  refl : same a a = true
  comm : same a b = same b a
  trans_iff : same a b = true → same b c = true →
    (same a c = true ↔ ∀ key f g, (fields a).get? key = some f → (fields b).get? key = none →
      (fields c).get? key = some g → f = g)

theorem same_iff_no_gap {s t u : KeyedSet Field} (hst : s.same t = true) (htu : t.same u = true) :
    s.same u = true ↔ ∀ key f g, s.get? key = some f → t.get? key = none →
      u.get? key = some g → f = g := by
  constructor
  · intro hsu key f g hf ht hg
    have hfg := (same_iff.1 hsu key).1
    rw [hf, hg] at hfg
    exact Field.eq_of_same_isWildcard hfg (isWildcard_of_gap hst hf ht)
  · intro hgap
    rw [same_iff] at hst htu
    refine same_iff.2 fun key => ⟨?_, ?_⟩
    · exact answers_trans (hst key).1 (hst key).2 (htu key).1 (hgap key)
    · refine answers_trans (htu key).2 (htu key).1 (hst key).2 ?_
      intro g f hg ht hf
      exact (hgap key f g hf ht hg).symm

/-- Sets of fields, and the matches made of them, are compared by what is almost an equivalence. -/
theorem almostEquivalence_same (s t u : KeyedSet Field) (l m n : Match) :
    AlmostEquivalence id KeyedSet.same s t u ∧ AlmostEquivalence Match.fields Match.same l m n := by
  constructor
  · exact ⟨same_refl s, same_comm s t, same_iff_no_gap⟩
  · exact ⟨same_refl l.fields, same_comm l.fields m.fields, same_iff_no_gap⟩

/-- The set of one address wildcard of a value. -/
def addressWildcard (value : Value .ipv4) : KeyedSet Field := ofList [⟨.ipv4Src, value, some 0⟩]

/-- The wildcards of two addresses mean the same as the empty set, but not the same as each
    other. -/
theorem not_same_trans_wildcards :
    ¬ ∀ s t u : KeyedSet Field, s.same t = true → t.same u = true → s.same u = true := by
  intro h
  have hsame := h (addressWildcard 0x0a000001) empty (addressWildcard 0x0a000002)
    (by decide) (by decide)
  exact absurd hsame (by decide)

/-! ## Sets of valid fields -/

/-- Among sets of valid fields, each under its own key, meaning the same is transitive. -/
theorem same_trans_of_checked {s t u : KeyedSet Field} (hs : s.WellKeyed) (hu : u.WellKeyed)
    (hcs : ∀ f ∈ s.toList, f.checkMask = .ok ()) (hcu : ∀ f ∈ u.toList, f.checkMask = .ok ())
    (hst : s.same t = true) (htu : t.same u = true) : s.same u = true := by
  refine (same_iff_no_gap hst htu).2 fun key f g hf ht hg => ?_
  have hfslot := mem_slots_iff.2 hf
  have hgslot := mem_slots_iff.2 hg
  have hfwild := isWildcard_of_gap hst hf ht
  have hgwild := isWildcard_of_gap ((same_comm u t).trans htu) hg ht
  -- the two stand under one key, so they are of one kind
  have htype : f.kind.oxmType = g.kind.oxmType := (hs _ hfslot).symm.trans (hu _ hgslot)
  have hkind : f.kind = g.kind := OxmKind.oxmType_injective htype
  exact Field.eq_of_isWildcard hkind hfwild hgwild (hcs f (List.mem_map_of_mem hfslot))
    (hcu g (List.mem_map_of_mem hgslot))

end KeyedSet

end OpenFlow
