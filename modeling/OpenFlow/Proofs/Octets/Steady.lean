import OpenFlow.Proofs.Octets.Known
import OpenFlow.Proofs.RecordFormat

set_option autoImplicit false

/-! # Decoders that see only what is to come

A decoder gets a cursor, which also tells how many octets were passed before, and it could move the
cursor anywhere. A `Steady` decoder does neither: the octets to come decide both its result and how
many of them it passes over, failure or not. So it comes to the same wherever its octets stand
(`Steady.run_shift`), and what it leaves is the end of what it was given (`Steady.exists_append`).
Reading, sequencing and looking ahead keep decoders steady, and confinement makes them so: all of a
record but its header and its padding is read in confinement (`RecordFormat.steady_decode`). -/

namespace OpenFlow

/-- The same octets to come, with `n` more octets passed before. -/
def Cursor.shift (c : Cursor) (n : Nat) : Cursor := ⟨n + c.pos, c.rest⟩

@[simp] theorem Cursor.remaining_shift (c : Cursor) (n : Nat) :
    (c.shift n).remaining = c.remaining := rfl

variable {α β : Type}

namespace Decoder

/-- The octets to come decide the result of `d`, and how many of them it passes over. -/
def Steady (d : Decoder α) : Prop :=
  ∀ rest : Octets, ∃ (result : Except DecodeError α) (n : Nat), n ≤ rest.length ∧
    ∀ pos, d.run ⟨pos, rest⟩ = (result, Cursor.advance ⟨pos, rest⟩ n)

variable {d : Decoder α} {f : α → Decoder β}

/-! ## What it means for a run -/

theorem Steady.run_shift (hd : d.Steady) (c : Cursor) (n : Nat) :
    d.run (c.shift n) = ((d.run c).1, (d.run c).2.shift n) := by
  obtain ⟨result, m, -, hrun⟩ := hd c.rest
  have hshift : d.run (c.shift n) = (result, (c.shift n).advance m) := hrun (n + c.pos)
  rw [hshift, show d.run c = _ from hrun c.pos]
  simp [Cursor.shift, Cursor.advance, Nat.add_assoc]

theorem Steady.run_shift_eq (hd : d.Steady) {c c' : Cursor} {result : Except DecodeError α}
    (h : d.run c = (result, c')) (n : Nat) : d.run (c.shift n) = (result, c'.shift n) := by
  rw [hd.run_shift, h]

theorem Steady.exists_append (hd : d.Steady) {c c' : Cursor} {result : Except DecodeError α}
    (h : d.run c = (result, c')) : ∃ bs, c.rest = bs ++ c'.rest := by
  obtain ⟨result', n, -, hrun⟩ := hd c.rest
  have hc' : c.advance n = c' := by
    have heq : d.run c = (result', c.advance n) := hrun c.pos
    rw [h] at heq
    exact (Prod.mk.inj heq).2.symm
  refine ⟨c.rest.take n, ?_⟩
  rw [← hc', Cursor.rest_advance, List.take_append_drop]

/-! ## Sequencing -/

theorem steady_pure (a : α) : (pure a : Decoder α).Steady :=
  fun _ => ⟨.ok a, 0, Nat.zero_le _, fun _ => by simp⟩

theorem steady_fail (e : DecodeError) : (fail e : Decoder α).Steady :=
  fun _ => ⟨.error e, 0, Nat.zero_le _, fun _ => by simp⟩

theorem Steady.bind (hd : d.Steady) (hf : ∀ a, (f a).Steady) : (d >>= f).Steady := by
  intro rest
  obtain ⟨result, n, hn, hfirst⟩ := hd rest
  cases result with
  | error e => exact ⟨.error e, n, hn, fun pos => run_bind_error (hfirst pos)⟩
  | ok a =>
    obtain ⟨result, m, hm, hsecond⟩ := hf a (rest.drop n)
    refine ⟨result, n + m, ?_, fun pos => ?_⟩
    · rw [List.length_drop] at hm
      omega
    · rw [run_bind_ok (hfirst pos), ← Cursor.advance_advance]
      exact hsecond (pos + n)

theorem Steady.map (hd : d.Steady) {g : α → β} : (d >>= fun a => pure (g a)).Steady :=
  hd.bind fun a => steady_pure (g a)

/-- Nothing is done after a failure. -/
theorem steady_fail_bind (e : DecodeError) : ((fail e : Decoder α) >>= f).Steady :=
  steady_fail e

theorem steady_ite {p : Prop} [Decidable p] {d d' : Decoder α} (hd : d.Steady) (hd' : d'.Steady) :
    (if p then d else d').Steady := by
  split
  · exact hd
  · exact hd'

/-! ## Octets and numbers -/

theorem steady_octets (n : Nat) : (octets n).Steady := by
  intro rest
  by_cases hn : n ≤ rest.length
  · exact ⟨.ok (rest.take n), n, hn, fun _ => run_octets_of_le hn⟩
  · refine ⟨.error (.endOfInput n rest.length), 0, Nat.zero_le _, fun pos => ?_⟩
    rw [Cursor.advance_zero]
    exact if_neg hn

theorem steady_word (width : Nat) : (word width).Steady := (steady_octets width).map

theorem steady_u16 : u16.Steady := (steady_word 2).map

theorem steady_u32 : u32.Steady := (steady_word 4).map

theorem steady_skip (n : Nat) : (skip n).Steady := (steady_octets n).map

theorem steady_need (e : Element) (n : Nat) : (need e n).Steady := by
  intro rest
  by_cases hn : n ≤ rest.length
  · refine ⟨.ok (), 0, Nat.zero_le _, fun pos => ?_⟩
    rw [Cursor.advance_zero]
    exact if_pos hn
  · refine ⟨.error (.truncated e n rest.length), 0, Nat.zero_le _, fun pos => ?_⟩
    rw [Cursor.advance_zero]
    exact if_neg hn

/-! ## Looking ahead and within bounds -/

theorem Steady.ahead (hd : d.Steady) : (ahead d).Steady := by
  intro rest
  obtain ⟨result, n, -, hrun⟩ := hd rest
  refine ⟨result, 0, Nat.zero_le _, fun pos => ?_⟩
  rw [run_ahead, hrun, Cursor.advance_zero]

/-- A confined decoder gets a cursor of its own, so it need not be steady itself. -/
theorem steady_within (n : Nat) (d : Decoder α) : (within n d).Steady := by
  refine (steady_octets n).bind fun bs rest => ?_
  refine ⟨(d.run (.start bs)).1, 0, Nat.zero_le _, fun pos => ?_⟩
  rw [Cursor.advance_zero]
  rfl

/-- What is stepped over was passed all the same. -/
theorem Steady.known (hd : d.Steady) : (known d).Steady := by
  intro rest
  obtain ⟨result, n, hn, hrun⟩ := hd rest
  cases result with
  | ok a => exact ⟨.ok (.ok a), n, hn, fun pos => run_known_of_ok (hrun pos)⟩
  | error e =>
    cases hcode : e.unknownCode? with
    | none => exact ⟨.error e, n, hn, fun pos => run_known_of_error (hrun pos) hcode⟩
    | some code =>
      exact ⟨.ok (.error code), n, hn, fun pos => run_known_of_unknown (hrun pos) hcode⟩

end Decoder

/-! ## Elements and records -/

open Decoder

theorem Header.steady_expect (e : Element) : (expect e).Steady := by
  have hread : read.Steady := steady_u16.bind fun _ => steady_u16.map
  refine (steady_need e _).bind fun _ => hread.ahead.bind fun h => ?_
  refine steady_ite (steady_fail_bind _) ?_
  exact (steady_need e h.size).map

theorem Decoder.steady_element (e : Element) (code : Nat) (layout : Layout α) :
    (element e code layout).Steady := by
  refine (Header.steady_expect e).bind fun h => ?_
  refine steady_ite (steady_fail_bind _) (steady_ite (steady_fail_bind _) ?_)
  exact steady_within h.size _

theorem Decoder.steady_skipPadding (e : Element) (length : Nat) : (skipPadding e length).Steady :=
  (steady_need e _).bind fun _ => steady_skip _

theorem Header.steady_skipUnknown (e : Element) (framing : Framing) :
    (skipUnknown e framing : Decoder α).Steady := by
  refine Steady.bind ?_ fun _ => steady_fail _
  refine (steady_expect e).bind fun h => (steady_skip h.size).bind fun _ => ?_
  exact steady_ite (steady_skipPadding e h.size).map (steady_pure h)

/-- Records are steady in all formats, whatever their bodies are read with. -/
theorem RecordFormat.steady_decode (F : RecordFormat α) : F.decode.Steady := by
  refine (Header.steady_expect F.element).bind fun h => ?_
  split
  · refine (steady_element F.element h.code _).bind fun a => ?_
    exact steady_ite (steady_skipPadding F.element h.size).map (steady_pure a)
  · exact Header.steady_skipUnknown F.element F.framing

theorem Decoder.steady_measured (e : Element) (least offset : Nat) (body : Decoder α) :
    (measured e least offset body).Steady := by
  have hlength : (do skip offset; word 2 : Decoder Nat).Steady :=
    (steady_skip offset).bind fun _ => steady_word 2
  refine (steady_need e least).bind fun _ => hlength.ahead.bind fun length => ?_
  refine steady_ite (steady_fail_bind _) ?_
  exact (steady_need e length).bind fun _ => steady_within length body

end OpenFlow
