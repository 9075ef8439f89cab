import OpenFlow.Proofs.Octets.Known

set_option autoImplicit false

/-! # Failures that octets are to blame for

Some of the ways in which decoding may fail would be a mistake of the decoder and not of the octets:
a read beyond the end where the octets were counted before, an element of another kind where the
kind was just looked up, octets left over where all are read. `DecodeError.Regular` says that a
failure is none of these. `d.RegularFrom n` says that `d` fails in no other way where `n` octets are
to come at least.

A decoder looks once how many octets there are, and then reads on without looking. That is no
mistake if the octets that it made sure of cover the widths of all the reads after it, which are
taken off one by one (`HasWidth.regular_bind`). So `RegularFrom` is kept by all parts of decoders,
loops included. -/

namespace OpenFlow

/-- The failure is one that octets can be to blame for. Octets are missing only where fewer were
    found than are needed. -/
def DecodeError.Regular : DecodeError → Prop
  | .endOfInput .. | .kindMismatch .. | .trailingOctets .. => False
  | .truncated _ needed available => available < needed
  | .unknownKind .. | .invalidLength .. | .limitExceeded .. | .duplicateKey .. => True

/-- The result is a value, or a failure that satisfies `P`. -/
def FailsOnlyWith {α : Type} (P : DecodeError → Prop) : Except DecodeError α → Prop
  | .ok _ => True
  | .error e => P e

theorem FailsOnlyWith.weaken {α : Type} {P Q : DecodeError → Prop} {result : Except DecodeError α}
    (h : FailsOnlyWith P result) (hPQ : ∀ e, P e → Q e) : FailsOnlyWith Q result := by
  cases result with
  | ok a => trivial
  | error e => exact hPQ e h

namespace Decoder

variable {α β σ : Type}

/-- Where at least `n` octets are to come, all failures of `d` are regular. -/
def RegularFrom (d : Decoder α) (n : Nat) : Prop :=
  ∀ c : Cursor, n ≤ c.remaining → FailsOnlyWith DecodeError.Regular (d.run c).1

/-- All failures of `d` are regular. -/
def Regular (d : Decoder α) : Prop := ∀ c : Cursor, FailsOnlyWith DecodeError.Regular (d.run c).1

variable {d : Decoder α} {f : α → Decoder β} {m n : Nat}

theorem Regular.regularFrom (hd : d.Regular) (n : Nat) : d.RegularFrom n := fun c _ => hd c

theorem RegularFrom.weaken (hd : d.RegularFrom m) (hmn : m ≤ n) : d.RegularFrom n :=
  fun c hc => hd c (Nat.le_trans hmn hc)

theorem RegularFrom.regular (hd : d.RegularFrom 0) : d.Regular := fun c => hd c (Nat.zero_le _)

/-! ## Sequencing -/

theorem regular_pure (a : α) : (pure a : Decoder α).Regular := fun _ => trivial

theorem regular_fail {e : DecodeError} (he : e.Regular) : (fail e : Decoder α).Regular :=
  fun _ => he

/-- What is done with a value that was read cannot fail. -/
theorem failsOnlyWith_map {P : DecodeError → Prop} {c : Cursor}
    (h : FailsOnlyWith P (d.run c).1) (g : α → β) :
    FailsOnlyWith P ((d >>= fun a => pure (g a)).run c).1 := by
  rcases hrun : d.run c with ⟨e | a, c'⟩
  · rw [hrun] at h
    rw [run_bind_error hrun]
    exact h
  · rw [run_bind_ok hrun]
    trivial

/-- What comes second has to do with no octets at all. -/
theorem RegularFrom.bind (hd : d.RegularFrom n) (hf : ∀ a, (f a).Regular) :
    (d >>= f).RegularFrom n := by
  intro c hc
  have hfirst := hd c hc
  rcases hrun : d.run c with ⟨e | a, c'⟩
  · rw [hrun] at hfirst
    rw [run_bind_error hrun]
    exact hfirst
  · rw [run_bind_ok hrun]
    exact hf a c'

theorem Regular.bind (hd : d.Regular) (hf : ∀ a, (f a).Regular) : (d >>= f).Regular :=
  ((hd.regularFrom 0).bind hf).regular

theorem Regular.map (hd : d.Regular) {g : α → β} : (d >>= fun a => pure (g a)).Regular :=
  hd.bind fun a => regular_pure (g a)

/-- Where the octets were counted, what comes second finds those that the first part leaves. -/
theorem HasWidth.regular_bind (hd : d.HasWidth m) (hf : ∀ a, (f a).RegularFrom n) :
    (d >>= f).RegularFrom (m + n) := by
  intro c hc
  obtain ⟨a, hrun⟩ := hd c (Nat.le_of_add_right_le hc)
  have hleft : n ≤ (c.advance m).remaining := by
    rw [Cursor.remaining_advance]
    omega
  rw [run_bind_ok hrun]
  exact hf a (c.advance m) hleft

theorem HasWidth.regularFrom (hd : d.HasWidth n) : d.RegularFrom n := by
  intro c hc
  obtain ⟨a, hrun⟩ := hd c hc
  rw [hrun]
  trivial

/-- Nothing is done after a failure. -/
theorem regular_fail_bind {e : DecodeError} (he : e.Regular) :
    ((fail e : Decoder α) >>= f).Regular := fun _ => he

theorem regularFrom_ite {p : Prop} [Decidable p] {d d' : Decoder α} (hd : p → d.RegularFrom n)
    (hd' : ¬ p → d'.RegularFrom n) : (if p then d else d').RegularFrom n := by
  split
  · exact hd ‹p›
  · exact hd' ‹¬ p›

theorem regular_ite {p : Prop} [Decidable p] {d d' : Decoder α} (hd : d.Regular)
    (hd' : d'.Regular) : (if p then d else d').Regular :=
  (regularFrom_ite (fun _ => hd.regularFrom 0) fun _ => hd'.regularFrom 0).regular

/-! ## Counting octets, looking ahead and within bounds -/

/-- What comes after counting octets may rely on them. -/
theorem regular_need_bind {e : Element} {f : Unit → Decoder β} (hf : (f ()).RegularFrom n) :
    (need e n >>= f).Regular := by
  intro c
  by_cases hn : n ≤ c.rest.length
  · rw [run_bind_ok (run_need_of_le hn)]
    exact hf c hn
  · rw [run_bind_error (run_need_of_lt (Nat.lt_of_not_le hn))]
    exact Nat.lt_of_not_le hn

/-- Looking ahead takes nothing off the octets that were counted. -/
theorem HasWidth.regular_ahead_bind (hd : d.HasWidth m) (hmn : m ≤ n)
    (hf : ∀ a, (f a).RegularFrom n) : (ahead d >>= f).RegularFrom n := by
  intro c hc
  obtain ⟨a, hrun⟩ := hd c (Nat.le_trans hmn hc)
  have hahead : (ahead d).run c = (.ok a, c) := by rw [run_ahead, hrun]
  rw [run_bind_ok hahead]
  exact hf a c hc

theorem RegularFrom.within (hd : d.RegularFrom m) (hmn : m ≤ n) : (within n d).RegularFrom n := by
  intro c hc
  rw [run_within_ok (run_octets_of_le hc)]
  refine hd (.start (c.rest.take n)) ?_
  rw [Cursor.remaining, Cursor.rest_start, List.length_take_of_le hc]
  exact hmn

theorem regular_remainder : remainder.Regular := fun _ => trivial

/-! ## Repetition -/

section Repetition

variable {step : σ → Decoder σ} {overfull : DecodeError}

/-- A loop takes a step only where an octet is to come. -/
theorem regular_untilEmptyIn (hoverfull : overfull.Regular) (hstep : ∀ s, (step s).RegularFrom 1)
    (steps : Nat) : ∀ (room : Nat) (s : σ), (untilEmptyIn overfull step steps room s).Regular := by
  induction steps with
  | zero =>
    intro room s
    exact regular_pure s
  | succ steps ih =>
    intro room s c
    by_cases hend : c.rest = []
    · rw [run_untilEmptyIn_of_end hend]
      trivial
    · cases room with
      | zero =>
        rw [run_untilEmptyIn_of_no_room hend]
        exact hoverfull
      | succ room =>
        -- a failure is that of the first step or of the loop after it
        have hfirst := hstep s c (remaining_pos_of_rest_ne_nil hend)
        rcases hrun : (step s).run c with ⟨e | s', c'⟩
        · rw [hrun] at hfirst
          rw [run_untilEmptyIn_of_error hend hrun]
          exact hfirst
        · rw [run_untilEmptyIn_of_ok hend hrun]
          exact ih room s' c'

theorem regular_untilEmpty (hoverfull : overfull.Regular) (hstep : ∀ s, (step s).RegularFrom 1)
    (bound : Nat) (s : σ) : (untilEmpty bound overfull step s).Regular :=
  fun c => regular_untilEmptyIn hoverfull hstep c.remaining bound s c

theorem regular_many (hoverfull : overfull.Regular) (hd : d.RegularFrom 1) (bound : Nat) :
    (many bound overfull d).Regular :=
  (regular_untilEmpty hoverfull (fun read => hd.bind fun a => regular_pure (a :: read)) _ []).map

theorem RegularFrom.known (hd : d.RegularFrom n) : (known d).RegularFrom n := by
  intro c hc
  have hresult := hd c hc
  rcases hrun : d.run c with ⟨e | a, c'⟩
  · cases hcode : e.unknownCode? with
    | none =>
      rw [hrun] at hresult
      rw [run_known_of_error hrun hcode]
      exact hresult
    | some code =>
      rw [run_known_of_unknown hrun hcode]
      trivial
  · rw [run_known_of_ok hrun]
    trivial

theorem regular_manyKnown (hoverfull : overfull.Regular) (hd : d.RegularFrom 1) (bound : Nat) :
    (manyKnown bound overfull d).Regular := by
  rw [manyKnown_eq]
  have hstep (s : List α × List Nat) :
      (Decoder.known d >>= fun x => pure (sortIn s x)).RegularFrom 1 :=
    hd.known.bind fun x => regular_pure (sortIn s x)
  exact (regular_untilEmpty hoverfull hstep bound ([], [])).map

end Repetition

end Decoder

end OpenFlow
