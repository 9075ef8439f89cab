import Mathlib.Data.List.Forall2
import OpenFlow.Proofs.Octets.Recognizing

set_option autoImplicit false

/-! # Loops that step over unknown kinds

`Decoder.manyKnown` sorts what `Decoder.known d` reads: values to one side, codes of unknown kinds
to the other (`run_manyKnown_cases`). Another decoder that takes the same steps makes a pass beside
it (`Pass.beside`), and `leading` is what such a decoder finds before it has to give up. -/

namespace OpenFlow.Decoder

variable {α β : Type}

/-! ## One value or one code -/

section Known

variable {d : Decoder α} {c c' : Cursor} {e : DecodeError}

theorem run_known (d : Decoder α) (c : Cursor) :
    (known d).run c = match d.run c with
      | (.ok a, c') => (.ok (.ok a), c')
      | (.error (.unknownKind _ code _), c') => (.ok (.error code), c')
      | (.error e, c') => (.error e, c') := rfl

theorem run_known_of_ok {a : α} (h : d.run c = (.ok a, c')) :
    (known d).run c = (.ok (.ok a), c') := by
  rw [run_known, h]

theorem run_known_of_unknown {code : Nat} (h : d.run c = (.error e, c'))
    (hcode : e.unknownCode? = some code) : (known d).run c = (.ok (.error code), c') := by
  rw [run_known, h]
  cases e <;> simp_all [DecodeError.unknownCode?]

theorem run_known_of_error (h : d.run c = (.error e, c')) (hcode : e.unknownCode? = none) :
    (known d).run c = (.error e, c') := by
  rw [run_known, h]
  cases e <;> simp_all [DecodeError.unknownCode?]

/-- What was read is a value, or else the one failure that is stepped over. -/
theorem run_known_cases {x : Except Nat α} (h : (known d).run c = (.ok x, c')) :
    (∃ a, x = .ok a ∧ d.run c = (.ok a, c'))
    ∨ ∃ e code, x = .error code ∧ d.run c = (.error e, c') ∧ e.unknownCode? = some code := by
  rcases hrun : d.run c with ⟨e | a, c₁⟩
  · cases hcode : e.unknownCode? with
    | none =>
      rw [run_known_of_error hrun hcode] at h
      simp at h
    | some code =>
      rw [run_known_of_unknown hrun hcode] at h
      obtain ⟨rfl, rfl⟩ : .error code = x ∧ c₁ = c' := by simpa using h
      exact Or.inr ⟨e, code, rfl, rfl, hcode⟩
  · rw [run_known_of_ok hrun] at h
    obtain ⟨rfl, rfl⟩ : .ok a = x ∧ c₁ = c' := by simpa using h
    exact Or.inl ⟨a, rfl, rfl⟩

end Known

/-! ## Values and codes apart -/

/-- The code of an unknown kind. -/
def unread? : Except Nat α → Option Nat
  | .ok _ => none
  | .error code => some code

/-- How the loop takes in what it reads. -/
def sortIn : List α × List Nat → Except Nat α → List α × List Nat
  | (read, skipped), .ok a => (a :: read, skipped)
  | (read, skipped), .error code => (read, code :: skipped)

theorem foldl_sortIn (xs : List (Except Nat α)) (read : List α) (skipped : List Nat) :
    xs.foldl sortIn (read, skipped)
      = ((xs.filterMap Except.toOption).reverse ++ read,
        (xs.filterMap unread?).reverse ++ skipped) := by
  induction xs generalizing read skipped with
  | nil => rfl
  | cons x xs ih =>
    cases x with
    | ok a =>
      rw [List.foldl_cons, sortIn, ih, List.filterMap_cons_some (by rfl : _ = some a),
        List.filterMap_cons_none (by rfl), List.reverse_cons, List.append_assoc]
      rfl
    | error code =>
      rw [List.foldl_cons, sortIn, ih, List.filterMap_cons_none (by rfl),
        List.filterMap_cons_some (by rfl : _ = some code), List.reverse_cons, List.append_assoc]
      rfl

theorem manyKnown_eq (bound : Nat) (overfull : DecodeError) (d : Decoder α) :
    manyKnown bound overfull d
      = untilEmpty bound overfull (fun s => known d >>= fun x => pure (sortIn s x)) ([], [])
        >>= fun s => pure (s.1.reverse, s.2.reverse) := by
  unfold manyKnown
  congr 2
  funext s
  refine congrArg (known d >>= ·) (funext fun x => ?_)
  cases x with
  | ok a => rfl
  | error code => rfl

/-- A loop that steps over unknown kinds has read to the end, and sorted what it has read. -/
theorem run_manyKnown_cases {d : Decoder α} {bound : Nat} {overfull : DecodeError}
    {c c' : Cursor} {as : List α} {skipped : List Nat} (hd : (known d).Consumes)
    (h : (manyKnown bound overfull d).run c = (.ok (as, skipped), c')) :
    ∃ xs, Pass (known d) c xs c' ∧ c'.rest = [] ∧ as = xs.filterMap Except.toOption
      ∧ skipped = xs.filterMap unread? := by
  rw [manyKnown_eq, run_bind_pure_iff] at h
  obtain ⟨⟨read, codes⟩, hloop, hsorted⟩ := h
  obtain ⟨rfl, rfl⟩ := Prod.mk.inj hsorted
  -- of the ways in which a loop ends, only reaching the end gives a result
  cases (run_untilEmpty_iff (fun s => hd.bind_pure) bound ([], []) c _).1 hloop with
  | finished walk hend hroom =>
    obtain ⟨xs, -, hfold, hpass⟩ := (walk_iff_pass sortIn fun _ => rfl).1 walk
    rw [foldl_sortIn] at hfold
    obtain ⟨rfl, rfl⟩ := Prod.mk.inj hfold
    refine ⟨xs, hpass, hend, ?_, ?_⟩
    · simp only [List.append_nil, List.reverse_reverse]
    · simp only [List.append_nil, List.reverse_reverse]

/-! ## Passes side by side -/

/-- A decoder that moves as `d` does makes a pass beside that of `d`. -/
theorem Pass.beside {d : Decoder α} {d' : Decoder β} {R : β → α → Prop}
    (hstep : ∀ {c a c'}, d.run c = (.ok a, c') → ∃ b, d'.run c = (.ok b, c') ∧ R b a)
    {c c' : Cursor} {as : List α} (h : Pass d c as c') :
    ∃ bs, Pass d' c bs c' ∧ List.Forall₂ R bs as := by
  induction h with
  | nil c => exact ⟨[], .nil c, .nil⟩
  | cons hrun hlt rest ih =>
    obtain ⟨b, hb, hR⟩ := hstep hrun
    obtain ⟨bs, hpass, hall⟩ := ih
    exact ⟨b :: bs, .cons hb hlt hpass, .cons hR hall⟩

/-- Reads values as long as that goes well, but no more than `steps` of them. -/
def leadingIn (d : Decoder α) : (steps : Nat) → Cursor → List α
  | 0, _ => []
  | steps + 1, c =>
    match d.run c with
    | (.ok a, c') => a :: leadingIn d steps c'
    | (.error _, _) => []

/-- The values up to the first that cannot be read. -/
def leading (d : Decoder α) (c : Cursor) : List α := leadingIn d c.remaining c

theorem leadingIn_of_ok {d : Decoder α} {c c' : Cursor} {a : α} (h : d.run c = (.ok a, c'))
    (steps : Nat) : leadingIn d (steps + 1) c = a :: leadingIn d steps c' := by
  rw [leadingIn, h]

theorem leadingIn_of_error {d : Decoder α} {c c' : Cursor} {e : DecodeError}
    (h : d.run c = (.error e, c')) (steps : Nat) : leadingIn d steps c = [] := by
  cases steps with
  | zero => rfl
  | succ steps => rw [leadingIn, h]

theorem Pass.leadingIn_eq {d : Decoder α} {c c' : Cursor} {as : List α} (h : Pass d c as c') :
    ∀ steps, c.remaining ≤ steps → ∃ steps', leadingIn d steps c = as ++ leadingIn d steps' c' := by
  induction h with
  | nil c =>
    intro steps _
    exact ⟨steps, rfl⟩
  | cons hrun hlt rest ih =>
    intro steps hsteps
    obtain ⟨steps, rfl⟩ : ∃ k, steps = k + 1 := ⟨steps - 1, by omega⟩
    obtain ⟨steps', heq⟩ := ih steps (by omega)
    refine ⟨steps', ?_⟩
    rw [leadingIn_of_ok hrun, heq]
    rfl

/-- Nothing can be read at the end. -/
theorem Consumes.run_of_end {d : Decoder α} (hd : d.Consumes) {c : Cursor} (hend : c.rest = []) :
    ∃ e c', d.run c = (.error e, c') := by
  rcases hrun : d.run c with ⟨e | a, c'⟩
  · exact ⟨e, c', rfl⟩
  · exact absurd hend (rest_ne_nil_of_remaining_lt (hd c a c' hrun))

/-- The values of a pass come first, ... -/
theorem Pass.leading_eq_append {d : Decoder α} {c c' : Cursor} {as : List α}
    (h : Pass d c as c') : ∃ more, leading d c = as ++ more := by
  obtain ⟨steps, heq⟩ := h.leadingIn_eq c.remaining (Nat.le_refl _)
  exact ⟨_, heq⟩

/-- ... and are all there is if nothing can be read after them. -/
theorem Pass.leading_eq {d : Decoder α} {c c' c'' : Cursor} {as : List α} {e : DecodeError}
    (h : Pass d c as c') (hrun : d.run c' = (.error e, c'')) : leading d c = as := by
  obtain ⟨steps, heq⟩ := h.leadingIn_eq c.remaining (Nat.le_refl _)
  rw [leading, heq, leadingIn_of_error hrun, List.append_nil]

/-- A pass goes on with one more value. -/
theorem Pass.concat {d : Decoder α} {c c' c'' : Cursor} {as : List α} {a : α}
    (h : Pass d c as c') (hrun : d.run c' = (.ok a, c''))
    (hlt : c''.remaining < c'.remaining) : Pass d c (as ++ [a]) c'' := by
  induction h with
  | nil c => exact .cons hrun hlt (.nil c'')
  | cons hfirst hlt' rest ih => exact .cons hfirst hlt' (ih hrun hlt)

end OpenFlow.Decoder
