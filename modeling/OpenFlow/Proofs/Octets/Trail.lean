import OpenFlow.Proofs.Octets.Restricting
import OpenFlow.Proofs.Octets.Steady

set_option autoImplicit false

/-! # Values with the octets they were read from

A `Trail` is a pass that keeps, beside each value, the octets that reading it took. For a decoder
that reads nothing from what it does not take (`Confined`) the octets of a trail may be taken apart
and put together otherwise: whatever is left of them is read as what is left of the values
(`ReadsEach.pass`).

The second part is about collecting values. `Stop` tells how that fails after a pass
(`run_many_error_iff`), and a loop that steps over unknown kinds is one that collects values and
codes alike and sorts them in the end (`manyKnown_eq_many`). -/

namespace OpenFlow.Decoder

variable {α σ τ : Type}

/-! ## Octets that are read by themselves -/

/-- A value is read from the octets that reading it takes, whatever stands around them. -/
def Confined (d : Decoder α) : Prop :=
  ∀ (c c' : Cursor) (a : α), d.run c = (.ok a, c') → ∃ bs, c.rest = bs ++ c'.rest ∧ d.Reads bs a

theorem Follows.confined {d : Decoder α} {S : α → Template → Prop}
    (hd : d.Follows anywhere S) : d.Confined := by
  intro c c' a hrun
  obtain ⟨t, bs, -, hbs, hrest, -, hreads⟩ := hd _ _ _ hrun
  exact ⟨bs, hrest, fun tail => hreads bs tail hbs trivial⟩

theorem Confined.reads {d : Decoder α} (hd : d.Confined) {c c' : Cursor} {a : α} {bs : Octets}
    (hrun : d.run c = (.ok a, c')) (hrest : c.rest = bs ++ c'.rest) : d.Reads bs a := by
  obtain ⟨bs', hrest', hreads⟩ := hd _ _ _ hrun
  obtain rfl : bs = bs' := List.append_cancel_right (hrest.symm.trans hrest')
  exact hreads

theorem Consumes.of_known {d : Decoder α} (hd : (known d).Consumes) : d.Consumes :=
  fun c _ c' hrun => hd c _ c' (run_known_of_ok hrun)

/-- `d` reads each of the values from the octets beside it, an octet at least. -/
def ReadsEach (d : Decoder α) (steps : List (Octets × α)) : Prop :=
  ∀ s ∈ steps, s.1 ≠ [] ∧ d.Reads s.1 s.2

/-! ## Trails -/

/-- `d` reads one value after the other from `c` to `c'`, each from the octets beside it. -/
inductive Trail (d : Decoder α) : Cursor → List (Octets × α) → Cursor → Prop where
  | nil (c : Cursor) : Trail d c [] c
  | cons {bs : Octets} {a : α} {steps : List (Octets × α)} {c c' c'' : Cursor}
      (hrun : d.run c = (.ok a, c')) (hrest : c.rest = bs ++ c'.rest) (hne : bs ≠ [])
      (rest : Trail d c' steps c'') : Trail d c ((bs, a) :: steps) c''

section Trail

variable {d : Decoder α} {c c' c'' : Cursor} {as : List α} {steps : List (Octets × α)}

theorem Pass.exists_trail (hd : d.Steady) (h : Pass d c as c') :
    ∃ steps, Trail d c steps c' ∧ steps.map Prod.snd = as := by
  induction h with
  | nil c => exact ⟨[], .nil c, rfl⟩
  | cons hrun hlt rest ih =>
    obtain ⟨steps, htrail, rfl⟩ := ih
    obtain ⟨bs, hrest⟩ := hd.exists_append hrun
    refine ⟨(bs, _) :: steps, .cons hrun hrest ?_ htrail, rfl⟩
    rintro rfl
    simp [Cursor.remaining, hrest] at hlt

theorem Trail.rest_eq (h : Trail d c steps c') :
    c.rest = steps.flatMap Prod.fst ++ c'.rest := by
  induction h with
  | nil c => rfl
  | cons hrun hrest hne rest ih => rw [hrest, ih, List.flatMap_cons, List.append_assoc]

theorem Trail.ne_nil (h : Trail d c steps c') : ∀ s ∈ steps, s.1 ≠ [] := by
  induction h with
  | nil c => exact List.forall_mem_nil _
  | cons hrun hrest hne rest ih => exact List.forall_mem_cons.2 ⟨hne, ih⟩

theorem Trail.exists_run (h : Trail d c steps c') :
    ∀ s ∈ steps, ∃ c₁ c₂, d.run c₁ = (.ok s.2, c₂) ∧ c₁.rest = s.1 ++ c₂.rest := by
  induction h with
  | nil c => exact List.forall_mem_nil _
  | cons hrun hrest hne rest ih => exact List.forall_mem_cons.2 ⟨⟨_, _, hrun, hrest⟩, ih⟩

theorem Trail.readsEach (hd : d.Confined) (h : Trail d c steps c') : d.ReadsEach steps := by
  intro s hs
  obtain ⟨c₁, c₂, hrun, hrest⟩ := h.exists_run s hs
  exact ⟨h.ne_nil s hs, hd.reads hrun hrest⟩

/-! ## Passes in a row -/

theorem Pass.append {bs : List α} (h : Pass d c as c') (h' : Pass d c' bs c'') :
    Pass d c (as ++ bs) c'' := by
  induction h with
  | nil c => exact h'
  | cons hrun hlt rest ih => exact .cons hrun hlt (ih h')

theorem Pass.exists_of_append {bs : List α} (h : Pass d c (as ++ bs) c'') :
    ∃ c', Pass d c as c' ∧ Pass d c' bs c'' := by
  induction as generalizing c with
  | nil => exact ⟨c, .nil c, h⟩
  | cons a as ih =>
    cases h with
    | cons hrun hlt rest =>
      obtain ⟨c', hfirst, hsecond⟩ := ih rest
      exact ⟨c', .cons hrun hlt hfirst, hsecond⟩

theorem Pass.shift (hd : d.Steady) (h : Pass d c as c') (n : Nat) :
    Pass d (c.shift n) as (c'.shift n) := by
  induction h with
  | nil c => exact .nil _
  | cons hrun hlt rest ih => exact .cons (hd.run_shift_eq hrun n) hlt ih

/-- Each value took an octet at least. -/
theorem Pass.length_add_le (h : Pass d c as c') : as.length + c'.remaining ≤ c.remaining := by
  induction h with
  | nil c => simp
  | cons hrun hlt rest ih =>
    rw [List.length_cons]
    omega

/-- Octets from which values are read may be put in a row, and are read one after the other. -/
theorem ReadsEach.pass (h : d.ReadsEach steps) (pos : Nat) (tail : Octets) :
    Pass d ⟨pos, steps.flatMap Prod.fst ++ tail⟩ (steps.map Prod.snd)
      ⟨pos + (steps.flatMap Prod.fst).length, tail⟩ := by
  induction steps generalizing pos with
  | nil => exact .nil _
  | cons s steps ih =>
    obtain ⟨⟨hne, hreads⟩, hsteps⟩ := List.forall_mem_cons.1 h
    have hrest := ih hsteps (pos + s.1.length)
    rw [List.flatMap_cons, List.append_assoc, List.length_append, ← Nat.add_assoc]
    refine .cons (hreads _ pos) ?_ hrest
    have hlength := List.length_pos_iff.2 hne
    simp only [Cursor.remaining, List.length_append]
    omega

end Trail

/-! ## How collecting values fails -/

/-- Collecting values cannot go on from `c` after `n` of them: there is no room for another, or it
    cannot be read. -/
inductive Stop (bound : Nat) (overfull : DecodeError) (d : Decoder α) (n : Nat) (c : Cursor) :
    DecodeError → Cursor → Prop where
  | full (hmore : c.rest ≠ []) (hfull : n = bound) : Stop bound overfull d n c overfull c
  | unread {e : DecodeError} {c' : Cursor} (hmore : c.rest ≠ []) (hroom : n < bound)
      (hrun : d.run c = (.error e, c')) : Stop bound overfull d n c e c'

section Stop

variable {d : Decoder α} {bound : Nat} {overfull e : DecodeError} {c c' c'' : Cursor}
  {as : List α}

theorem Stop.run_many (h : Stop bound overfull d as.length c' e c'') (hpass : Pass d c as c') :
    (many bound overfull d).run c = (.error e, c'') := by
  have hwalk : Walk (fun read => d >>= fun a => pure (a :: read)) as.length [] c
      (as.foldl (fun read a => a :: read) []) c' :=
    (walk_iff_pass (fun read a => a :: read) fun _ => rfl).2 ⟨as, rfl, rfl, hpass⟩
  unfold many
  cases h with
  | full hmore hfull => exact run_bind_error (LoopEnd.full (hfull ▸ hwalk) hmore).run_eq
  | unread hmore hroom hrun =>
    exact run_bind_error
      (LoopEnd.failed hwalk hmore hroom (run_bind_pure_error_iff.2 hrun)).run_eq

theorem run_many_error_iff (hd : d.Consumes) :
    (many bound overfull d).run c = (.error e, c'') ↔
      ∃ as c', Pass d c as c' ∧ Stop bound overfull d as.length c' e c'' := by
  constructor
  · intro hrun
    obtain ⟨as, c', hpass, -, hcases⟩ := run_many_cases hd bound overfull c
    rcases hcases with ⟨-, hok⟩ | ⟨hmore, hfull, herror⟩ | ⟨hmore, hroom, e', c₂, hstep, herror⟩
    · simp [hok] at hrun
    · obtain ⟨rfl, rfl⟩ : overfull = e ∧ c' = c'' := by simpa [herror] using hrun
      exact ⟨as, c', hpass, .full hmore hfull⟩
    · obtain ⟨rfl, rfl⟩ : e' = e ∧ c₂ = c'' := by simpa [herror] using hrun
      exact ⟨as, c', hpass, .unread hmore hroom hstep⟩
  · rintro ⟨as, c', hpass, hstop⟩
    exact hstop.run_many hpass

/-- A decoder that fails where `d` fails stops where `d` stops. -/
theorem Stop.of_error {β : Type} {d' : Decoder β} {n : Nat}
    (hfail : ∀ c', d.run c = (.error e, c') → d'.run c = (.error e, c'))
    (h : Stop bound overfull d n c e c') : Stop bound overfull d' n c e c' := by
  cases h with
  | full hmore hfull => exact .full hmore hfull
  | unread hmore hroom hrun => exact .unread hmore hroom (hfail _ hrun)

end Stop

/-! ## Values and codes in one list -/

theorem bind_pure_self (d : Decoder α) : (d >>= fun a => pure a) = d := by
  funext c
  show (d >>= fun a => pure a).run c = d.run c
  rcases hrun : d.run c with ⟨e | a, c'⟩
  · exact run_bind_error hrun
  · exact run_bind_ok hrun

theorem bind_bind (d : Decoder α) (f : α → Decoder σ) (g : σ → Decoder τ) :
    (d >>= f >>= g) = d >>= fun a => f a >>= g := by
  funext c
  show (d >>= f >>= g).run c = (d >>= fun a => f a >>= g).run c
  rcases hrun : d.run c with ⟨e | a, c'⟩
  · rw [run_bind_error (run_bind_error hrun), run_bind_error hrun]
  · rw [run_bind, run_bind_ok hrun, run_bind_ok hrun, run_bind]

instance : LawfulMonad Decoder :=
  .mk' Decoder bind_pure_self (fun _ _ => rfl) bind_bind

/-- A loop whose state is told by that of another loop, step by step. -/
theorem untilEmptyIn_map {overfull : DecodeError} {step : σ → Decoder σ} {step' : τ → Decoder τ}
    (g : σ → τ) (hstep : ∀ s, step' (g s) = step s >>= fun s' => pure (g s')) (steps : Nat) :
    ∀ (room : Nat) (s : σ), untilEmptyIn overfull step' steps room (g s)
      = untilEmptyIn overfull step steps room s >>= fun t => pure (g t) := by
  induction steps with
  | zero => exact fun _ _ => rfl
  | succ steps ih =>
    intro room s
    funext c
    show (untilEmptyIn overfull step' (steps + 1) room (g s)).run c
      = (untilEmptyIn overfull step (steps + 1) room s >>= fun t => pure (g t)).run c
    by_cases hend : c.rest = []
    · rw [run_untilEmptyIn_of_end hend, run_bind_ok (run_untilEmptyIn_of_end hend ..), run_pure]
    · cases room with
      | zero =>
        rw [run_untilEmptyIn_of_no_room hend, run_bind_error (run_untilEmptyIn_of_no_room hend ..)]
      | succ room =>
        rw [run_untilEmptyIn_of_room hend, run_bind, run_untilEmptyIn_of_room hend, hstep]
        rcases hrun : (step s).run c with ⟨e | s', c'⟩
        · rw [run_bind_error hrun]
        · rw [run_bind_ok hrun, run_pure]
          exact congrArg (run · c') (ih room s')

theorem untilEmpty_map {overfull : DecodeError} {step : σ → Decoder σ} {step' : τ → Decoder τ}
    (g : σ → τ) (hstep : ∀ s, step' (g s) = step s >>= fun s' => pure (g s')) (bound : Nat)
    (s : σ) : untilEmpty bound overfull step' (g s)
      = untilEmpty bound overfull step s >>= fun t => pure (g t) := by
  funext c
  exact congrFun (untilEmptyIn_map g hstep c.remaining bound s) c

/-- Values to one side and codes to the other. -/
def sides (xs : List (Except Nat α)) : List α × List Nat :=
  (xs.filterMap Except.toOption, xs.filterMap unread?)

theorem sortIn_sides (read : List (Except Nat α)) (x : Except Nat α) :
    sortIn (sides read) x = sides (x :: read) := by
  cases x <;> rfl

theorem length_sides (xs : List (Except Nat α)) :
    (sides xs).1.length + (sides xs).2.length = xs.length := by
  induction xs with
  | nil => rfl
  | cons x xs ih =>
    rw [← sortIn_sides]
    cases x <;> simp [sortIn, ← ih] <;> omega

/-- Stepping over unknown kinds is reading values and codes, and sorting them in the end. -/
theorem manyKnown_eq_many (bound : Nat) (overfull : DecodeError) (d : Decoder α) :
    manyKnown bound overfull d = many bound overfull (known d) >>= fun xs => pure (sides xs) := by
  have hloop : untilEmpty bound overfull (fun s => known d >>= fun x => pure (sortIn s x))
        (sides [])
      = untilEmpty bound overfull (fun read => known d >>= fun x => pure (x :: read)) []
        >>= fun read => pure (sides read) :=
    untilEmpty_map sides (fun read => by simp [sortIn_sides]) bound []
  rw [manyKnown_eq, show ([], []) = sides ([] : List (Except Nat α)) from rfl, hloop]
  simp [many, sides]

end OpenFlow.Decoder
