import OpenFlow.Proofs.Framing
import OpenFlow.Proofs.Octets.Walk

set_option autoImplicit false

/-! # What decoders recognize

An unknown kind is reported by the one error that a sequence may step over, wherever it is found.
`d.Recognizes P` says that `d` never reports one, and that whatever it reads satisfies `P`. It is
enough to look at the parts of a decoder: reading, sequencing and repeating keep it. -/

namespace OpenFlow

/-- The code that was reported, if reading failed for an unknown kind. -/
def DecodeError.unknownCode? : DecodeError → Option Nat
  | .unknownKind _ code _ => some code
  | _ => none

namespace Decoder

variable {α β σ : Type}

/-- `d` fails for no unknown kind, and what it reads satisfies `P`. -/
structure Recognizes (d : Decoder α) (P : α → Prop) : Prop where
  value : ∀ {c c' : Cursor} {a : α}, d.run c = (.ok a, c') → P a
  failure : ∀ {c c' : Cursor} {e : DecodeError},
    d.run c = (.error e, c') → e.unknownCode? = none

theorem Recognizes.weaken {d : Decoder α} {P Q : α → Prop} (hd : d.Recognizes P)
    (h : ∀ a, P a → Q a) : d.Recognizes Q :=
  ⟨fun hrun => h _ (hd.value hrun), hd.failure⟩

/-! ## Sequencing -/

theorem recognizes_pure {P : α → Prop} {a : α} (h : P a) : (pure a : Decoder α).Recognizes P := by
  refine ⟨?_, ?_⟩
  · intro c c' b hrun
    obtain ⟨rfl, -⟩ : a = b ∧ c = c' := by simpa using hrun
    exact h
  · intro c c' e hrun
    simp at hrun

theorem recognizes_fail {P : α → Prop} {e : DecodeError} (h : e.unknownCode? = none) :
    (fail e : Decoder α).Recognizes P := by
  refine ⟨?_, ?_⟩
  · intro c c' a hrun
    simp at hrun
  · intro c c' e' hrun
    obtain ⟨rfl, -⟩ : e = e' ∧ c = c' := by simpa using hrun
    exact h

theorem Recognizes.bind {d : Decoder α} {f : α → Decoder β} {P : α → Prop} {Q : β → Prop}
    (hd : d.Recognizes P) (hf : ∀ a, P a → (f a).Recognizes Q) : (d >>= f).Recognizes Q := by
  refine ⟨?_, ?_⟩
  · intro c c' b hrun
    rcases hfirst : d.run c with ⟨e | a, c₁⟩
    · rw [run_bind_error hfirst] at hrun
      simp at hrun
    · rw [run_bind_ok hfirst] at hrun
      exact (hf a (hd.value hfirst)).value hrun
  · intro c c' e hrun
    rcases hfirst : d.run c with ⟨e₁ | a, c₁⟩
    · rw [run_bind_error hfirst] at hrun
      obtain ⟨rfl, -⟩ : e₁ = e ∧ c₁ = c' := by simpa using hrun
      exact hd.failure hfirst
    · rw [run_bind_ok hfirst] at hrun
      exact (hf a (hd.value hfirst)).failure hrun

/-- A value is read and put into something that satisfies `Q`. -/
theorem Recognizes.map {d : Decoder α} {P : α → Prop} {Q : β → Prop} (hd : d.Recognizes P)
    {f : α → β} (hf : ∀ a, P a → Q (f a)) : (d >>= fun a => pure (f a)).Recognizes Q :=
  hd.bind fun a ha => recognizes_pure (hf a ha)

/-- What is done after `d` recognizes all it looks at, so an unknown kind was met by `d`. -/
theorem run_of_bind_unknown {d : Decoder α} {f : α → Decoder β} {Q : β → Prop} {c c' : Cursor}
    {e : DecodeError} {n : Nat} (hf : ∀ a, (f a).Recognizes Q)
    (hrun : (d >>= f).run c = (.error e, c')) (hcode : e.unknownCode? = some n) :
    d.run c = (.error e, c') := by
  rcases hfirst : d.run c with ⟨e₁ | a, c₁⟩
  · rw [run_bind_error hfirst] at hrun
    obtain ⟨rfl, rfl⟩ : e₁ = e ∧ c₁ = c' := by simpa using hrun
    rfl
  · rw [run_bind_ok hfirst] at hrun
    have hnone := (hf a).failure hrun
    simp [hnone] at hcode

/-- The value of a sequence comes from its second part. -/
theorem exists_of_bind_ok {d : Decoder α} {f : α → Decoder β} {Q : β → Prop} {c c' : Cursor}
    {b : β} (hf : ∀ a, (f a).Recognizes Q) (hrun : (d >>= f).run c = (.ok b, c')) :
    Q b ∧ ∃ a c₁, d.run c = (.ok a, c₁) := by
  rcases hfirst : d.run c with ⟨e | a, c₁⟩
  · rw [run_bind_error hfirst] at hrun
    simp at hrun
  · rw [run_bind_ok hfirst] at hrun
    exact ⟨(hf a).value hrun, a, c₁, rfl⟩

/-- Nothing is done after a failure. -/
theorem recognizes_fail_bind {f : α → Decoder β} {P : β → Prop} {e : DecodeError}
    (h : e.unknownCode? = none) : ((fail e : Decoder α) >>= f).Recognizes P :=
  (recognizes_fail (P := fun _ => False) h).bind fun _ hfalse => hfalse.elim

theorem recognizes_ite {p : Prop} [Decidable p] {d d' : Decoder α} {P : α → Prop}
    (h : p → d.Recognizes P) (h' : ¬ p → d'.Recognizes P) :
    (if p then d else d').Recognizes P := by
  by_cases hp : p
  · rw [if_pos hp]
    exact h hp
  · rw [if_neg hp]
    exact h' hp

/-! ## Octets and numbers -/

/-- The next octets are there, or there are too few. -/
theorem run_octets_cases (n : Nat) (c : Cursor) :
    (octets n).run c = (.ok (c.rest.take n), c.advance n)
    ∨ (octets n).run c = (.error (.endOfInput n c.remaining), c) := by
  by_cases hn : c.Holds n
  · exact Or.inl (if_pos hn)
  · exact Or.inr (if_neg hn)

theorem recognizes_octets (n : Nat) : (octets n).Recognizes fun _ => True := by
  refine ⟨fun _ => trivial, ?_⟩
  intro c c' e hrun
  rcases run_octets_cases n c with hok | herror
  · rw [hok] at hrun
    simp at hrun
  · rw [herror] at hrun
    obtain ⟨rfl, -⟩ : DecodeError.endOfInput n c.remaining = e ∧ c = c' := by simpa using hrun
    rfl

theorem recognizes_word (width : Nat) : (word width).Recognizes fun _ => True :=
  (recognizes_octets width).map fun _ _ => trivial

theorem recognizes_u8 : u8.Recognizes fun _ => True :=
  (recognizes_word 1).map fun _ _ => trivial

theorem recognizes_u16 : u16.Recognizes fun _ => True :=
  (recognizes_word 2).map fun _ _ => trivial

theorem recognizes_u32 : u32.Recognizes fun _ => True :=
  (recognizes_word 4).map fun _ _ => trivial

theorem recognizes_u64 : u64.Recognizes fun _ => True :=
  (recognizes_word 8).map fun _ _ => trivial

theorem recognizes_skip (n : Nat) : (skip n).Recognizes fun _ => True :=
  (recognizes_octets n).map fun _ _ => trivial

/-- Octets are stepped over, or there are too few. -/
theorem run_skip_cases (n : Nat) (c : Cursor) :
    (skip n).run c = (.ok (), c.advance n)
    ∨ (skip n).run c = (.error (.endOfInput n c.remaining), c) := by
  rcases run_octets_cases n c with hok | herror
  · exact Or.inl (run_bind_ok hok)
  · exact Or.inr (run_bind_error herror)

theorem recognizes_remainder : remainder.Recognizes fun _ => True := by
  refine ⟨fun _ => trivial, ?_⟩
  intro c c' e hrun
  have hok : remainder.run c = (.ok c.rest, ⟨c.pos + c.remaining, []⟩) := rfl
  rw [hok] at hrun
  simp at hrun

theorem recognizes_need (e : Element) (n : Nat) : (need e n).Recognizes fun _ => True := by
  refine ⟨fun _ => trivial, ?_⟩
  intro c c' failure hrun
  by_cases hn : n ≤ c.rest.length
  · rw [run_need_of_le hn] at hrun
    simp at hrun
  · rw [run_need_of_lt (Nat.lt_of_not_le hn)] at hrun
    obtain ⟨rfl, -⟩ : DecodeError.truncated e n c.rest.length = failure ∧ c = c' := by
      simpa using hrun
    rfl

/-! ## Looking ahead and within bounds -/

theorem Recognizes.ahead {d : Decoder α} {P : α → Prop} (hd : d.Recognizes P) :
    (ahead d).Recognizes P := by
  refine ⟨?_, ?_⟩
  · intro c c' a hrun
    rw [run_ahead] at hrun
    obtain ⟨hresult, -⟩ := Prod.mk.inj hrun
    exact hd.value (Prod.ext hresult rfl)
  · intro c c' e hrun
    rw [run_ahead] at hrun
    obtain ⟨hresult, -⟩ := Prod.mk.inj hrun
    exact hd.failure (Prod.ext hresult rfl)

theorem Recognizes.within {d : Decoder α} {P : α → Prop} (hd : d.Recognizes P) (n : Nat) :
    (within n d).Recognizes P := by
  refine (recognizes_octets n).bind fun bs _ => ⟨?_, ?_⟩
  · intro c c' a hrun
    obtain ⟨hresult, -⟩ := Prod.mk.inj hrun
    exact hd.value (Prod.ext hresult rfl)
  · intro c c' e hrun
    obtain ⟨hresult, -⟩ := Prod.mk.inj hrun
    exact hd.failure (Prod.ext hresult rfl)

theorem recognizes_expect (e : Element) : (Header.expect e).Recognizes fun _ => True := by
  refine ⟨fun _ => trivial, ?_⟩
  intro c c' failure hrun
  rcases Header.expect_cases e c with
    ⟨n, -, hcase⟩ | ⟨h, rest, -, -, hcase⟩ | ⟨h, body, tail, -, hcase⟩
  · rw [hcase] at hrun
    obtain ⟨hfailure, -⟩ := Prod.mk.inj hrun
    rw [← Except.error.inj hfailure]
    rfl
  · rw [hcase] at hrun
    obtain ⟨hfailure, -⟩ := Prod.mk.inj hrun
    rw [← Except.error.inj hfailure]
    rfl
  · rw [hcase] at hrun
    simp at hrun

/-- An element whose body is recognized. -/
theorem recognizes_element {e : Element} {code : Nat} {layout : Layout α} {P : α → Prop}
    (hbody : ∀ h, (layout.body h).Recognizes P) : (element e code layout).Recognizes P := by
  refine (recognizes_expect e).bind fun h _ => ?_
  refine recognizes_ite (fun _ => recognizes_fail_bind rfl) fun _ => ?_
  refine recognizes_ite (fun _ => recognizes_fail_bind rfl) fun _ => ?_
  exact ((recognizes_skip headerLength).bind fun _ _ => hbody h).within h.size

/-! ## Repetition -/

/-- `d'` answers `a` where the octets have run out, and does as `d` does where they have not. -/
theorem Recognizes.unless_end {d d' : Decoder α} {P : α → Prop} {a : α} (hd : d.Recognizes P)
    (ha : P a) (hend : ∀ c : Cursor, c.rest = [] → d'.run c = (.ok a, c))
    (hmore : ∀ c : Cursor, c.rest ≠ [] → d'.run c = d.run c) : d'.Recognizes P := by
  refine ⟨fun {c c' b} hrun => ?_, fun {c c' e} hrun => ?_⟩ <;> by_cases hc : c.rest = []
  · rw [hend c hc] at hrun
    obtain ⟨rfl, -⟩ : a = b ∧ c = c' := by simpa using hrun
    exact ha
  · exact hd.value ((hmore c hc).symm.trans hrun)
  · rw [hend c hc] at hrun
    simp at hrun
  · exact hd.failure ((hmore c hc).symm.trans hrun)

/-- A loop keeps what each of its steps keeps. -/
theorem recognizes_untilEmptyIn {overfull : DecodeError} {step : σ → Decoder σ} {P : σ → Prop}
    (hoverfull : overfull.unknownCode? = none) (hstep : ∀ s, P s → (step s).Recognizes P)
    (steps : Nat) :
    ∀ (room : Nat) (s : σ), P s → (untilEmptyIn overfull step steps room s).Recognizes P := by
  induction steps with
  | zero =>
    intro room s hs
    exact recognizes_pure hs
  | succ steps ih =>
    intro room s hs
    cases room with
    | zero =>
      exact (recognizes_fail hoverfull).unless_end hs
        (fun _ hc => run_untilEmptyIn_of_end hc _ _ s)
        fun _ hc => run_untilEmptyIn_of_no_room hc steps s
    | succ room =>
      exact ((hstep s hs).bind (ih room)).unless_end hs
        (fun _ hc => run_untilEmptyIn_of_end hc _ _ s)
        fun _ hc => run_untilEmptyIn_of_room hc steps room s

/-- What is read over and over satisfies what each value of it does. -/
theorem recognizes_many {d : Decoder α} {P : α → Prop} {overfull : DecodeError} (bound : Nat)
    (hoverfull : overfull.unknownCode? = none) (hd : d.Recognizes P) :
    (many bound overfull d).Recognizes fun as => ∀ a ∈ as, P a := by
  have hstep (read : List α) (hread : ∀ a ∈ read, P a) :
      (d >>= fun a => pure (a :: read)).Recognizes fun read => ∀ a ∈ read, P a :=
    hd.map fun a ha => List.forall_mem_cons.2 ⟨ha, hread⟩
  have hloop : (untilEmpty bound overfull (fun read : List α => d >>= fun a => pure (a :: read))
      []).Recognizes fun read => ∀ a ∈ read, P a := by
    have hsteps (steps : Nat) := recognizes_untilEmptyIn hoverfull hstep steps bound []
      (List.forall_mem_nil P)
    exact ⟨fun {c _ _} hrun => (hsteps c.remaining).value hrun,
      fun {c _ _} hrun => (hsteps c.remaining).failure hrun⟩
  refine hloop.map fun read hread a ha => hread a ?_
  exact List.mem_reverse.1 ha

end Decoder

end OpenFlow
