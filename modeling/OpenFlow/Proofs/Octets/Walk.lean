import OpenFlow.Octets.Repetition
import OpenFlow.Proofs.Octets.Reading

set_option autoImplicit false

/-! # Runs of steps

A loop that reads until the octets run out is a run of steps, each of which starts from the state
and the cursor that the one before it left. `Walk` is such a run of steps that all succeed, with
their number; `LoopEnd` tells how a bounded loop can end. `run_untilEmpty_iff` says that these are
exactly the runs of `Decoder.untilEmpty`: the number of steps that the loop recurs on never runs
out, because each step takes an octet at least.

Most loops collect what one decoder reads over and over. For these `Pass` gives the values in the
order in which they were read, whatever the loop does with them (`walk_iff_pass`). -/

namespace OpenFlow.Decoder

variable {σ α : Type}

/-- A read that succeeds takes at least one octet. -/
def Consumes (d : Decoder α) : Prop :=
  ∀ (c : Cursor) (a : α) (c' : Cursor), d.run c = (.ok a, c') → c'.remaining < c.remaining

/-- `n` steps in a row that succeed, from the state `s` at the cursor `c` to the state `t` at
    `c'`. -/
inductive Walk (step : σ → Decoder σ) : Nat → σ → Cursor → σ → Cursor → Prop where
  | nil (s : σ) (c : Cursor) : Walk step 0 s c s c
  | cons {n : Nat} {s s' t : σ} {c c' c'' : Cursor} (hrun : (step s).run c = (.ok s', c'))
      (hlt : c'.remaining < c.remaining) (rest : Walk step n s' c' t c'') :
      Walk step (n + 1) s c t c''

/-- How a loop of at most `bound` steps ends: the octets have run out, there is no room for one
    more step, or a step has failed. -/
inductive LoopEnd (bound : Nat) (overfull : DecodeError) (step : σ → Decoder σ) (s : σ)
    (c : Cursor) : Except DecodeError σ × Cursor → Prop where
  | finished {n : Nat} {t : σ} {c' : Cursor} (walk : Walk step n s c t c') (hend : c'.rest = [])
      (hroom : n ≤ bound) : LoopEnd bound overfull step s c (.ok t, c')
  | full {t : σ} {c' : Cursor} (walk : Walk step bound s c t c') (hmore : c'.rest ≠ []) :
      LoopEnd bound overfull step s c (.error overfull, c')
  | failed {n : Nat} {t : σ} {c' c'' : Cursor} {e : DecodeError} (walk : Walk step n s c t c')
      (hmore : c'.rest ≠ []) (hroom : n < bound) (hrun : (step t).run c' = (.error e, c'')) :
      LoopEnd bound overfull step s c (.error e, c'')

variable {step : σ → Decoder σ} {overfull : DecodeError}

/-! ## The loop is a walk -/

theorem isEmpty_iff (c : Cursor) : c.isEmpty = true ↔ c.rest = [] := List.isEmpty_iff

theorem remaining_pos_of_rest_ne_nil {c : Cursor} (h : c.rest ≠ []) : 0 < c.remaining :=
  List.length_pos_iff.2 h

theorem rest_ne_nil_of_remaining_lt {c c' : Cursor} (h : c'.remaining < c.remaining) :
    c.rest ≠ [] := by
  intro hnil
  rw [Cursor.remaining, Cursor.remaining, hnil] at h
  exact absurd h (Nat.not_lt_zero _)

theorem run_untilEmptyIn_of_end {c : Cursor} (h : c.rest = []) (steps room : Nat) (s : σ) :
    (untilEmptyIn overfull step steps room s).run c = (.ok s, c) := by
  cases steps with
  | zero => rfl
  | succ steps => exact if_pos ((isEmpty_iff c).2 h)

theorem run_untilEmptyIn_of_no_room {c : Cursor} (hmore : c.rest ≠ []) (steps : Nat) (s : σ) :
    (untilEmptyIn overfull step (steps + 1) 0 s).run c = (.error overfull, c) :=
  if_neg fun h => hmore ((isEmpty_iff c).1 h)

theorem run_untilEmptyIn_of_room {c : Cursor} (hmore : c.rest ≠ []) (steps room : Nat) (s : σ) :
    (untilEmptyIn overfull step (steps + 1) (room + 1) s).run c = match (step s).run c with
      | (.ok s', c') => (untilEmptyIn overfull step steps room s').run c'
      | (.error e, c') => (.error e, c') :=
  if_neg fun h => hmore ((isEmpty_iff c).1 h)

theorem run_untilEmptyIn_of_ok {c c' : Cursor} {s s' : σ} (hmore : c.rest ≠ [])
    (hrun : (step s).run c = (.ok s', c')) (steps room : Nat) :
    (untilEmptyIn overfull step (steps + 1) (room + 1) s).run c
      = (untilEmptyIn overfull step steps room s').run c' := by
  rw [run_untilEmptyIn_of_room hmore, hrun]

theorem run_untilEmptyIn_of_error {c c' : Cursor} {s : σ} {e : DecodeError} (hmore : c.rest ≠ [])
    (hrun : (step s).run c = (.error e, c')) (steps room : Nat) :
    (untilEmptyIn overfull step (steps + 1) (room + 1) s).run c = (.error e, c') := by
  rw [run_untilEmptyIn_of_room hmore, hrun]

/-- After a walk the loop goes on from where the walk has come to. -/
theorem Walk.run_untilEmptyIn_eq {n : Nat} {s t : σ} {c c' : Cursor} (h : Walk step n s c t c')
    (overfull : DecodeError) :
    ∀ (steps room : Nat), c.remaining ≤ steps → ∃ steps', c'.remaining ≤ steps'
      ∧ (untilEmptyIn overfull step steps (n + room) s).run c
        = (untilEmptyIn overfull step steps' room t).run c' := by
  induction h with
  | nil s c =>
    intro steps room hsteps
    refine ⟨steps, hsteps, ?_⟩
    rw [Nat.zero_add]
  | @cons n s s' t c c' c'' hrun hlt rest ih =>
    intro steps room hsteps
    obtain ⟨steps, rfl⟩ : ∃ k, steps = k + 1 := ⟨steps - 1, by omega⟩
    -- a step takes an octet, so one step fewer still covers what remains
    obtain ⟨steps', hsteps', heq⟩ := ih steps room (by omega)
    refine ⟨steps', hsteps', ?_⟩
    rw [Nat.add_right_comm, run_untilEmptyIn_of_ok (rest_ne_nil_of_remaining_lt hlt) hrun, heq]

theorem LoopEnd.run_eq {bound : Nat} {s : σ} {c : Cursor} {answer : Except DecodeError σ × Cursor}
    (h : LoopEnd bound overfull step s c answer) :
    (untilEmpty bound overfull step s).run c = answer := by
  show (untilEmptyIn overfull step c.remaining bound s).run c = answer
  cases h with
  | @finished n t c' walk hend hroom =>
    obtain ⟨room, rfl⟩ := Nat.exists_eq_add_of_le hroom
    obtain ⟨steps, -, heq⟩ := walk.run_untilEmptyIn_eq overfull _ room (Nat.le_refl _)
    rw [heq, run_untilEmptyIn_of_end hend]
  -- octets remain, so a step is left to find that there is no room for it
  | @full t c' walk hmore =>
    obtain ⟨steps, hsteps, heq⟩ := walk.run_untilEmptyIn_eq overfull _ 0 (Nat.le_refl _)
    have hpos := remaining_pos_of_rest_ne_nil hmore
    obtain ⟨steps, rfl⟩ : ∃ k, steps = k + 1 := ⟨steps - 1, by omega⟩
    rw [Nat.add_zero] at heq
    rw [heq, run_untilEmptyIn_of_no_room hmore]
  | @failed n t c' c'' e walk hmore hroom hrun =>
    obtain ⟨room, rfl⟩ := Nat.exists_eq_add_of_lt hroom
    obtain ⟨steps, hsteps, heq⟩ :=
      walk.run_untilEmptyIn_eq overfull _ (room + 1) (Nat.le_refl _)
    have hpos := remaining_pos_of_rest_ne_nil hmore
    obtain ⟨steps, rfl⟩ : ∃ k, steps = k + 1 := ⟨steps - 1, by omega⟩
    rw [Nat.add_assoc, heq, run_untilEmptyIn_of_error hmore hrun]

/-- A walk of several steps is a walk of the first of them, and one of the rest. -/
theorem Walk.split {m n : Nat} {s t : σ} {c c' : Cursor} (h : Walk step (m + n) s c t c') :
    ∃ (u : σ) (c₁ : Cursor), Walk step m s c u c₁ ∧ Walk step n u c₁ t c' := by
  induction m generalizing s c with
  | zero =>
    rw [Nat.zero_add] at h
    exact ⟨s, c, .nil s c, h⟩
  | succ m ih =>
    rw [Nat.add_right_comm] at h
    cases h with
    | cons hrun hlt rest =>
      obtain ⟨u, c₁, hfirst, hrest⟩ := ih rest
      exact ⟨u, c₁, .cons hrun hlt hfirst, hrest⟩

/-- A walk that could go on past the bound is more than the loop has room for. -/
theorem Walk.exists_run_overfull {n bound : Nat} {s t : σ} {c c' : Cursor}
    (h : Walk step n s c t c') (overfull : DecodeError) (hfull : bound ≤ n)
    (hmore : n = bound → c'.rest ≠ []) :
    ∃ c₁, (untilEmpty bound overfull step s).run c = (.error overfull, c₁) := by
  obtain ⟨rest, rfl⟩ := Nat.exists_eq_add_of_le hfull
  obtain ⟨u, c₁, hfirst, hrest⟩ := h.split
  have hmore₁ : c₁.rest ≠ [] := by
    cases hrest with
    | nil => exact hmore rfl
    | cons hrun hlt _ => exact rest_ne_nil_of_remaining_lt hlt
  exact ⟨c₁, (LoopEnd.full hfirst hmore₁).run_eq⟩

theorem loopEnd_untilEmptyIn (hstep : ∀ s, (step s).Consumes) :
    ∀ (steps bound : Nat) (s : σ) (c : Cursor), c.remaining ≤ steps →
      LoopEnd bound overfull step s c ((untilEmptyIn overfull step steps bound s).run c) := by
  intro steps
  induction steps with
  -- no steps are allowed only where no octets remain
  | zero =>
    intro bound s c hsteps
    have hend : c.rest = [] := List.length_eq_zero_iff.1 (Nat.le_zero.1 hsteps)
    exact .finished (.nil s c) hend (Nat.zero_le bound)
  | succ steps ih =>
    intro bound s c hsteps
    by_cases hend : c.rest = []
    · rw [run_untilEmptyIn_of_end hend]
      exact .finished (.nil s c) hend (Nat.zero_le bound)
    · cases bound with
      | zero =>
        rw [run_untilEmptyIn_of_no_room hend]
        exact .full (.nil s c) hend
      | succ bound =>
        rcases hrun : (step s).run c with ⟨e | s', c'⟩
        · rw [run_untilEmptyIn_of_error hend hrun]
          exact .failed (.nil s c) hend (Nat.zero_lt_succ bound) hrun
        · have hlt : c'.remaining < c.remaining := hstep s c s' c' hrun
          rw [run_untilEmptyIn_of_ok hend hrun]
          -- the walk of the remaining steps gets the first step in front of it
          generalize hanswer : (untilEmptyIn overfull step steps bound s').run c' = answer
          have hloop := ih bound s' c' (by omega)
          rw [hanswer] at hloop
          cases hloop with
          | finished walk hend' hroom =>
            exact .finished (.cons hrun hlt walk) hend' (Nat.succ_le_succ hroom)
          | full walk hmore => exact .full (.cons hrun hlt walk) hmore
          | failed walk hmore hroom hfail =>
            exact .failed (.cons hrun hlt walk) hmore (Nat.succ_lt_succ hroom) hfail

/-- The runs of the loop are the bounded walks up to where they end. -/
theorem run_untilEmpty_iff (hstep : ∀ s, (step s).Consumes) (bound : Nat) (s : σ) (c : Cursor)
    (answer : Except DecodeError σ × Cursor) :
    (untilEmpty bound overfull step s).run c = answer ↔ LoopEnd bound overfull step s c answer := by
  constructor
  · intro h
    rw [← h]
    exact loopEnd_untilEmptyIn hstep c.remaining bound s c (Nat.le_refl _)
  · exact LoopEnd.run_eq

/-- What every step preserves holds where the loop ends. -/
theorem untilEmptyIn_invariant {P : σ → Prop}
    (hstep : ∀ {s s' : σ} {c c' : Cursor}, P s → (step s).run c = (.ok s', c') → P s') :
    ∀ (steps room : Nat) {s t : σ} {c c' : Cursor}, P s →
      (untilEmptyIn overfull step steps room s).run c = (.ok t, c') → P t := by
  intro steps
  induction steps with
  | zero =>
    intro room s t c c' hs h
    obtain ⟨rfl, -⟩ : s = t ∧ c = c' := by simpa [untilEmptyIn, run, succeed] using h
    exact hs
  | succ steps ih =>
    intro room s t c c' hs h
    by_cases hend : c.rest = []
    · rw [run_untilEmptyIn_of_end hend] at h
      obtain ⟨rfl, -⟩ : s = t ∧ c = c' := by simpa using h
      exact hs
    · cases room with
      | zero =>
        rw [run_untilEmptyIn_of_no_room hend] at h
        simp at h
      | succ room =>
        rcases hrun : (step s).run c with ⟨e | s', c₁⟩
        · rw [run_untilEmptyIn_of_error hend hrun] at h
          simp at h
        · rw [run_untilEmptyIn_of_ok hend hrun] at h
          exact ih room (hstep hs hrun) h

/-! ## Passes of one decoder -/

/-- `d` reads the values `as` one after the other, from the cursor `c` to `c'`. -/
inductive Pass (d : Decoder α) : Cursor → List α → Cursor → Prop where
  | nil (c : Cursor) : Pass d c [] c
  | cons {a : α} {as : List α} {c c' c'' : Cursor} (hrun : d.run c = (.ok a, c'))
      (hlt : c'.remaining < c.remaining) (rest : Pass d c' as c'') : Pass d c (a :: as) c''

variable {d : Decoder α}

/-- A step that reads a value and takes it into the state succeeds when the read does. -/
theorem run_bind_pure_iff {f : α → σ} {c c' : Cursor} {t : σ} :
    (d >>= fun a => pure (f a)).run c = (.ok t, c') ↔ ∃ a, d.run c = (.ok a, c') ∧ f a = t := by
  rcases hrun : d.run c with ⟨e | a, c₁⟩
  · rw [run_bind_error hrun]
    simp
  · rw [run_bind_ok hrun, run_pure]
    simp only [Prod.mk.injEq, Except.ok.injEq]
    constructor
    · rintro ⟨ht, hc⟩
      exact ⟨a, ⟨rfl, hc⟩, ht⟩
    · rintro ⟨a', ⟨rfl, hc⟩, ht⟩
      exact ⟨ht, hc⟩

/-- The step fails when the read does. -/
theorem run_bind_pure_error_iff {f : α → σ} {c c' : Cursor} {e : DecodeError} :
    (d >>= fun a => pure (f a)).run c = (.error e, c') ↔ d.run c = (.error e, c') := by
  rcases hrun : d.run c with ⟨e₁ | a, c₁⟩
  · rw [run_bind_error hrun]
    simp
  · rw [run_bind_ok hrun, run_pure]
    simp

theorem Consumes.bind_pure {f : α → σ} (hd : d.Consumes) :
    (d >>= fun a => pure (f a)).Consumes := by
  intro c t c' h
  obtain ⟨a, hrun, -⟩ := run_bind_pure_iff.1 h
  exact hd c a c' hrun

/-- A walk whose steps read a value and take it into the state is a pass that is folded up. -/
theorem walk_iff_pass (next : σ → α → σ)
    (hstep : ∀ s, step s = d >>= fun a => pure (next s a)) {n : Nat} {s t : σ} {c c' : Cursor} :
    Walk step n s c t c' ↔ ∃ as, as.length = n ∧ as.foldl next s = t ∧ Pass d c as c' := by
  constructor
  · intro h
    induction h with
    | nil s c => exact ⟨[], rfl, rfl, .nil c⟩
    | @cons n s s' t c c' c'' hrun hlt rest ih =>
      rw [hstep, run_bind_pure_iff] at hrun
      obtain ⟨a, ha, rfl⟩ := hrun
      obtain ⟨as, hlength, hfold, hpass⟩ := ih
      refine ⟨a :: as, ?_, hfold, .cons ha hlt hpass⟩
      rw [List.length_cons, hlength]
  · rintro ⟨as, rfl, rfl, hpass⟩
    induction hpass generalizing s with
    | nil c => exact .nil s c
    | @cons a as c c' c'' hrun hlt rest ih =>
      refine .cons ?_ hlt ih
      rw [hstep, run_bind_pure_iff]
      exact ⟨a, hrun, rfl⟩

theorem Pass.length_le {as : List α} {c c' : Cursor} (h : Pass d c as c') :
    as.length ≤ c.remaining := by
  induction h with
  | nil c => exact Nat.zero_le _
  | cons hrun hlt rest ih =>
    rw [List.length_cons]
    omega

/-- Octets that are read one value after the other. -/
theorem Pass.of_reads {octets : α → Octets} {as : List α} (hreads : ∀ a ∈ as, d.Reads (octets a) a)
    (hpos : ∀ a ∈ as, octets a ≠ []) (pos : Nat) (tail : Octets) :
    Pass d ⟨pos, as.flatMap octets ++ tail⟩ as ⟨pos + (as.flatMap octets).length, tail⟩ := by
  induction as generalizing pos with
  | nil => exact .nil _
  | cons a as ih =>
    have ha := hreads a List.mem_cons_self
    have hne := hpos a List.mem_cons_self
    have hrest := ih (fun b hb => hreads b (List.mem_cons_of_mem a hb))
      (fun b hb => hpos b (List.mem_cons_of_mem a hb)) (pos + (octets a).length)
    rw [List.flatMap_cons, List.append_assoc, List.length_append, ← Nat.add_assoc]
    refine .cons (ha _ pos) ?_ hrest
    have hlength := List.length_pos_iff.2 hne
    simp only [Cursor.remaining, List.length_append]
    omega

/-! ## Collecting values -/

theorem Pass.run_many {bound : Nat} {as : List α} {c c' : Cursor} (h : Pass d c as c')
    (hend : c'.rest = []) (hbound : as.length ≤ bound) :
    (many bound overfull d).run c = (.ok as, c') := by
  have hwalk : Walk (fun read => d >>= fun a => pure (a :: read)) as.length [] c
      (as.reverse ++ []) c' :=
    (walk_iff_pass (fun read a => a :: read) fun _ => rfl).2
      ⟨as, rfl, List.foldl_flip_cons_eq_append', h⟩
  have hloop : (untilEmpty bound overfull (fun read => d >>= fun a => pure (a :: read)) []).run c
      = (.ok (as.reverse ++ []), c') :=
    (LoopEnd.finished hwalk hend hbound).run_eq
  unfold many
  rw [run_bind_ok hloop, run_pure, List.append_nil, List.reverse_reverse]

/-- How collecting values ends: with all of them, with one too many, or at one that cannot be
    read. -/
theorem run_many_cases (hd : d.Consumes) (bound : Nat) (overfull : DecodeError) (c : Cursor) :
    ∃ (as : List α) (c' : Cursor), Pass d c as c' ∧ as.length ≤ bound
      ∧ ((c'.rest = [] ∧ (many bound overfull d).run c = (.ok as, c'))
        ∨ (c'.rest ≠ [] ∧ as.length = bound
          ∧ (many bound overfull d).run c = (.error overfull, c'))
        ∨ (c'.rest ≠ [] ∧ as.length < bound ∧ ∃ e c'', d.run c' = (.error e, c'')
          ∧ (many bound overfull d).run c = (.error e, c''))) := by
  have hstep : ∀ read : List α, (d >>= fun a => pure (a :: read)).Consumes :=
    fun read => hd.bind_pure
  generalize hanswer : (untilEmpty bound overfull
    (fun read : List α => d >>= fun a => pure (a :: read)) []).run c = answer
  have hloop := (run_untilEmpty_iff hstep bound [] c answer).1 hanswer
  unfold many
  cases hloop with
  | @finished n t c' walk hend hroom =>
    obtain ⟨as, rfl, rfl, hpass⟩ := (walk_iff_pass (fun read a => a :: read) fun _ => rfl).1 walk
    refine ⟨as, c', hpass, hroom, Or.inl ⟨hend, ?_⟩⟩
    rw [run_bind_ok hanswer, run_pure, List.foldl_flip_cons_eq_append', List.append_nil,
      List.reverse_reverse]
  | @full t c' walk hmore =>
    obtain ⟨as, rfl, rfl, hpass⟩ := (walk_iff_pass (fun read a => a :: read) fun _ => rfl).1 walk
    exact ⟨as, c', hpass, Nat.le_refl _, Or.inr (Or.inl ⟨hmore, rfl, run_bind_error hanswer⟩)⟩
  | @failed n t c' c'' e walk hmore hroom hrun =>
    obtain ⟨as, rfl, rfl, hpass⟩ := (walk_iff_pass (fun read a => a :: read) fun _ => rfl).1 walk
    exact ⟨as, c', hpass, Nat.le_of_lt hroom, Or.inr (Or.inr ⟨hmore, hroom, e, c'',
      run_bind_pure_error_iff.1 hrun, run_bind_error hanswer⟩)⟩

end OpenFlow.Decoder
