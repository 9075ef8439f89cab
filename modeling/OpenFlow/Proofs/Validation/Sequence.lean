import Mathlib.Data.List.Induction
import OpenFlow.Record

set_option autoImplicit false

/-! # How sequences are checked

Two loops check the entries of a sequence. The one asks each entry for itself (`validateEach`), and
entries that it has nothing against might as well be left out. The other also holds each entry
against those before it (`validateDistinct`). What it accepts are the sequences in which each entry
is valid and no two clash (`Clean`), so the order of the entries has no influence on the verdict as
long as clashing does not depend on which of the two comes first (`Clean.perm_iff`). Where entries
clash that have something in common, a kind or a key, it tells the accepted ones apart (`CleanBy`).
The order does have an influence on the fault that is reported: it is that of the first entry that
is not valid or clashes with an earlier one (`validateDistinct_eq_error_iff`). -/

namespace OpenFlow

variable {α : Type}

/-! ## Checks one after the other -/

theorem run_and_then_eq_ok_iff {ε : Type} {x y : Except ε Unit} :
    (do x; y : Except ε Unit) = .ok () ↔ x = .ok () ∧ y = .ok () := by
  cases x with
  | error e => exact ⟨fun h => (nomatch h), fun h => (nomatch h.1)⟩
  | ok u => exact ⟨fun h => ⟨rfl, h⟩, fun h => h.2⟩

theorem mapError_eq_ok_iff {ε ε' : Type} {f : ε → ε'} {x : Except ε Unit} :
    x.mapError f = .ok () ↔ x = .ok () := by
  cases x <;> simp [Except.mapError]

theorem Record.checked_eq_ok_iff [Record α] {a b : α} :
    Record.checked a = .ok b ↔ Record.validate a = .ok () ∧ b = a := by
  unfold Record.checked
  cases Record.validate a with
  | error v => exact ⟨fun h => (nomatch h), fun h => (nomatch h.1)⟩
  | ok u => exact ⟨fun h => ⟨rfl, (Except.ok.inj h).symm⟩, fun h => congrArg Except.ok h.2.symm⟩

section Each

variable {validate : α → Except Violation Unit} {as : List α}

theorem validateEach_eq_ok_iff :
    validateEach validate as = .ok () ↔ ∀ a ∈ as, validate a = .ok () := by
  induction as with
  | nil => exact ⟨fun _ => List.forall_mem_nil _, fun _ => rfl⟩
  | cons a as ih =>
    rw [validateEach, run_and_then_eq_ok_iff, ih, List.forall_mem_cons]

theorem validateEach_cons_of_valid {a : α} (h : validate a = .ok ()) :
    validateEach validate (a :: as) = validateEach validate as := by
  rw [validateEach, h]
  rfl

theorem validateEach_map {β : Type} (f : β → α) (bs : List β) :
    validateEach validate (bs.map f) = validateEach (fun b => validate (f b)) bs := by
  induction bs with
  | nil => rfl
  | cons b bs ih => simp only [List.map_cons, validateEach, ih]

/-- Entries that there is nothing against may be left out. -/
theorem validateEach_filter {p : α → Bool} (h : ∀ a, p a = false → validate a = .ok ()) :
    validateEach validate (as.filter p) = validateEach validate as := by
  induction as with
  | nil => rfl
  | cons a as ih =>
    cases hp : p a with
    | false =>
      rw [List.filter_cons_of_neg (by simp [hp]), ih, validateEach_cons_of_valid (h a hp)]
    | true =>
      rw [List.filter_cons_of_pos hp, validateEach, validateEach, ih]

end Each

/-! ## Entries that are held against each other -/

/-- Each entry is valid, and none clashes with one before it. -/
structure Clean (validate : α → Except Violation Unit) (clash : α → α → Bool) (as : List α) :
    Prop where
  valid : ∀ a ∈ as, validate a = .ok ()
  distinct : as.Pairwise fun a b => clash a b = false

/-- Each entry is valid, and `f` tells them apart. -/
structure CleanBy {β : Type} (validate : α → Except Violation Unit) (f : α → β) (as : List α) :
    Prop where
  valid : ∀ a ∈ as, validate a = .ok ()
  distinct : (as.map f).Nodup

/-- The check accepts the sequences that are `good` and no others, in whatever order the entries
    come. -/
structure Judges (check : List α → Except Violation Unit) (good : List α → Prop) : Prop where
  ok_iff : ∀ as, check as = .ok () ↔ good as
  perm_iff : ∀ as bs, as.Perm bs → (check as = .ok () ↔ check bs = .ok ())

/-- `v` is what there is against the first entry that is not valid or clashes with an earlier one.
    If it is not valid, then that counts. -/
inductive FirstFault (validate : α → Except Violation Unit) (clash : α → α → Bool)
    (repeated : α → Violation) : List α → Violation → Prop where
  | invalid {before after : List α} {a : α} {v : Violation} (clean : Clean validate clash before)
      (fault : validate a = .error v) :
      FirstFault validate clash repeated (before ++ a :: after) v
  | repeats {before after : List α} {a b : α} (clean : Clean validate clash before)
      (valid : validate a = .ok ()) (earlier : b ∈ before) (clashes : clash b a = true) :
      FirstFault validate clash repeated (before ++ a :: after) (repeated a)

section Distinct

variable {validate : α → Except Violation Unit} {clash : α → α → Bool} {repeated : α → Violation}
  {seen as : List α} {a b : α} {v : Violation}

theorem clean_nil : Clean validate clash [] := ⟨List.forall_mem_nil _, .nil⟩

theorem clean_cons_iff : Clean validate clash (a :: as) ↔
    validate a = .ok () ∧ (∀ b ∈ as, clash a b = false) ∧ Clean validate clash as := by
  constructor
  · rintro ⟨hvalid, hdistinct⟩
    rw [List.forall_mem_cons] at hvalid
    rw [List.pairwise_cons] at hdistinct
    exact ⟨hvalid.1, hdistinct.1, hvalid.2, hdistinct.2⟩
  · rintro ⟨ha, hfresh, hvalid, hdistinct⟩
    exact ⟨List.forall_mem_cons.2 ⟨ha, hvalid⟩, .cons hfresh hdistinct⟩

/-- If it does not matter which of two entries comes first, then no order does. -/
theorem Clean.perm_iff (hcomm : ∀ a b, clash a b = clash b a) {bs : List α} (h : as.Perm bs) :
    Clean validate clash as ↔ Clean validate clash bs := by
  have hpairwise := h.pairwise_iff (R := fun a b => clash a b = false) fun {a b} hab =>
    (hcomm b a).trans hab
  constructor
  · rintro ⟨hvalid, hdistinct⟩
    exact ⟨fun b hb => hvalid b (h.mem_iff.2 hb), hpairwise.1 hdistinct⟩
  · rintro ⟨hvalid, hdistinct⟩
    exact ⟨fun a ha => hvalid a (h.mem_iff.1 ha), hpairwise.2 hdistinct⟩

/-- No two entries clash over what `f` makes of them if it tells them apart. -/
theorem clean_beq_iff {β : Type} [DecidableEq β] {f : α → β} :
    Clean validate (fun a b => f a == f b) as ↔ CleanBy validate f as := by
  have hdistinct : as.Pairwise (fun a b => (f a == f b) = false) ↔ (as.map f).Nodup := by
    rw [List.Nodup, List.pairwise_map]
    simp only [beq_eq_false_iff_ne]
  exact ⟨fun h => ⟨h.valid, hdistinct.1 h.distinct⟩, fun h => ⟨h.valid, hdistinct.2 h.distinct⟩⟩

theorem CleanBy.perm_iff {β : Type} [DecidableEq β] {f : α → β} {bs : List α} (h : as.Perm bs) :
    CleanBy validate f as ↔ CleanBy validate f bs := by
  rw [← clean_beq_iff, ← clean_beq_iff]
  exact Clean.perm_iff (fun _ _ => Bool.beq_comm) h

theorem Judges.of_iff {check : List α → Except Violation Unit} {good : List α → Prop}
    (hok : ∀ as, check as = .ok () ↔ good as)
    (hperm : ∀ as bs, as.Perm bs → (good as ↔ good bs)) : Judges check good := by
  refine ⟨hok, fun as bs h => ?_⟩
  rw [hok, hok, hperm as bs h]

/-! ## One entry

There are three ways that it can go with the next entry. -/

theorem validateDistinct_of_invalid (h : validate a = .error v) :
    validateDistinct validate clash repeated seen (a :: as) = .error v := by
  rw [validateDistinct, h]
  rfl

theorem validateDistinct_of_clash (hvalid : validate a = .ok ()) (hb : b ∈ seen)
    (hclash : clash b a = true) :
    validateDistinct validate clash repeated seen (a :: as) = .error (repeated a) := by
  have hany : seen.any (clash · a) = true := List.any_eq_true.2 ⟨b, hb, hclash⟩
  rw [validateDistinct, hvalid, hany]
  rfl

theorem validateDistinct_of_fresh (hvalid : validate a = .ok ())
    (hfresh : ∀ b ∈ seen, clash b a = false) :
    validateDistinct validate clash repeated seen (a :: as)
      = validateDistinct validate clash repeated (a :: seen) as := by
  have hany : seen.any (clash · a) = false := by simpa using hfresh
  rw [validateDistinct, hvalid, hany]
  rfl

theorem invalid_or_clash_or_fresh (validate : α → Except Violation Unit) (clash : α → α → Bool)
    (seen : List α) (a : α) :
    (∃ v, validate a = .error v) ∨ validate a = .ok () ∧ (∃ b ∈ seen, clash b a = true)
      ∨ validate a = .ok () ∧ ∀ b ∈ seen, clash b a = false := by
  cases validate a with
  | error v => exact .inl ⟨v, rfl⟩
  | ok u =>
    by_cases hclash : ∃ b ∈ seen, clash b a = true
    · exact .inr (.inl ⟨rfl, hclash⟩)
    · refine .inr (.inr ⟨rfl, fun b hb => Bool.eq_false_iff.2 fun h => hclash ⟨b, hb, h⟩⟩)

/-! ## The whole sequence -/

theorem validateDistinct_eq_ok_iff :
    validateDistinct validate clash repeated seen as = .ok () ↔
      Clean validate clash as ∧ ∀ a ∈ as, ∀ b ∈ seen, clash b a = false := by
  induction as generalizing seen with
  | nil => exact ⟨fun _ => ⟨clean_nil, List.forall_mem_nil _⟩, fun _ => rfl⟩
  | cons a as ih =>
    rw [clean_cons_iff, List.forall_mem_cons]
    rcases invalid_or_clash_or_fresh validate clash seen a with
      ⟨v, hfault⟩ | ⟨hvalid, b, hb, hclash⟩ | ⟨hvalid, hfresh⟩
    · simp [validateDistinct_of_invalid hfault, hfault]
    · rw [validateDistinct_of_clash hvalid hb hclash]
      refine ⟨fun h => (nomatch h), fun h => ?_⟩
      rw [h.2.1 b hb] at hclash
      cases hclash
    · rw [validateDistinct_of_fresh hvalid hfresh, ih]
      -- the entry has joined those that were seen
      simp only [List.forall_mem_cons, forall_and, hvalid, true_and]
      exact ⟨fun ⟨hclean, hnew, hold⟩ => ⟨⟨hnew, hclean⟩, hfresh, hold⟩,
        fun ⟨⟨hnew, hclean⟩, _, hold⟩ => ⟨hclean, hnew, hold⟩⟩

theorem validateDistinct_nil_eq_ok_iff :
    validateDistinct validate clash repeated [] as = .ok () ↔ Clean validate clash as := by
  rw [validateDistinct_eq_ok_iff]
  exact and_iff_left fun _ _ => List.forall_mem_nil _

theorem validateDistinct_append (bs : List α) :
    validateDistinct validate clash repeated seen (as ++ bs) = (do
      validateDistinct validate clash repeated seen as
      validateDistinct validate clash repeated (as.reverse ++ seen) bs) := by
  induction as generalizing seen with
  | nil => rfl
  | cons a as ih =>
    rw [List.cons_append]
    rcases invalid_or_clash_or_fresh validate clash seen a with
      ⟨v, hfault⟩ | ⟨hvalid, b, hb, hclash⟩ | ⟨hvalid, hfresh⟩
    · rw [validateDistinct_of_invalid hfault, validateDistinct_of_invalid hfault]
      rfl
    · rw [validateDistinct_of_clash hvalid hb hclash, validateDistinct_of_clash hvalid hb hclash]
      rfl
    · rw [validateDistinct_of_fresh hvalid hfresh, validateDistinct_of_fresh hvalid hfresh, ih,
        List.reverse_cons, List.append_assoc]
      rfl

theorem validateDistinct_after_clean (h : Clean validate clash as) (bs : List α) :
    validateDistinct validate clash repeated [] (as ++ bs)
      = validateDistinct validate clash repeated as.reverse bs := by
  rw [validateDistinct_append, validateDistinct_nil_eq_ok_iff.2 h, List.append_nil]
  rfl

theorem FirstFault.append (h : FirstFault validate clash repeated as v) (bs : List α) :
    FirstFault validate clash repeated (as ++ bs) v := by
  cases h with
  | invalid clean fault =>
    rw [List.append_assoc]
    exact .invalid clean fault
  | repeats clean valid earlier clashes =>
    rw [List.append_assoc]
    exact .repeats clean valid earlier clashes

/-- What is reported is the fault of the first entry that is not valid or clashes with an earlier
    one. -/
theorem validateDistinct_eq_error_iff :
    validateDistinct validate clash repeated [] as = .error v ↔
      FirstFault validate clash repeated as v := by
  constructor
  · intro h
    induction as using List.reverseRecOn with
    | nil => cases h
    | append_singleton as a ih =>
      cases hrun : validateDistinct validate clash repeated [] as with
      | error v' =>
        rw [validateDistinct_append, hrun] at h
        obtain rfl : v' = v := Except.error.inj h
        exact (ih hrun).append [a]
      | ok u =>
        have hclean := validateDistinct_nil_eq_ok_iff.1 hrun
        rw [validateDistinct_after_clean hclean] at h
        rcases invalid_or_clash_or_fresh validate clash as.reverse a with
          ⟨v', hfault⟩ | ⟨hvalid, b, hb, hclash⟩ | ⟨hvalid, hfresh⟩
        · rw [validateDistinct_of_invalid hfault] at h
          obtain rfl : v' = v := Except.error.inj h
          exact .invalid hclean hfault
        · rw [validateDistinct_of_clash hvalid hb hclash] at h
          obtain rfl : repeated a = v := Except.error.inj h
          exact .repeats hclean hvalid (List.mem_reverse.1 hb) hclash
        · rw [validateDistinct_of_fresh hvalid hfresh] at h
          cases h
  · intro h
    cases h with
    | invalid clean fault =>
      rw [validateDistinct_after_clean clean, validateDistinct_of_invalid fault]
    | repeats clean valid earlier clashes =>
      rw [validateDistinct_after_clean clean,
        validateDistinct_of_clash valid (List.mem_reverse.2 earlier) clashes]

end Distinct

end OpenFlow
