import Mathlib.Data.List.Forall2
import OpenFlow.Octets.ReaderStack
import OpenFlow.Octets.Writer
import OpenFlow.Proofs.Framing

set_option autoImplicit false

/-! # Runs of a writer, and runs of a reader over what was written

A run of a writer is any mixture of numbers, octets, zeros and padding. What was put in first is
read first: the main statement, `writer_and_reader_inverse`, says that the steps of reading that
fit a run answer what was put in, one after the other, and leave nothing; and that the lengths of
what was put in add up to the length of the writer at every point of the run.

The width of a value carries the proof: a step of reading that fits a value takes as many octets
as the value took, so that the next one begins where the next value does. -/

namespace OpenFlow

/-! ## Putting in -/

/-- One thing to put into a writer. -/
inductive Put where
  | value (s : WriteStep)
  /-- The padding after an element of that length. -/
  | padding (length : Nat)
  deriving DecidableEq, Repr

/-- The step of the writer that puts it in. -/
def Put.step : Put → WriteStep
  | .value s => s
  | .padding length => .zeros (gap length)

/-- The octets that it takes. -/
def Put.octets (p : Put) : Octets := p.step.encoded

/-- How many octets it takes, by what it is. -/
def Put.size : Put → Nat
  | .value (.u8 _) => 1
  | .value (.u16 _) => 2
  | .value (.u32 _) => 4
  | .value (.u64 _) => 8
  | .value (.octets bs) => bs.length
  | .value (.zeros count) => count
  | .padding length => gap length

@[simp] theorem Put.length_octets (p : Put) : p.octets.length = p.size := by
  rcases p with (_ | _ | _ | _ | bs | count) | length <;>
    simp [octets, step, size, WriteStep.encoded]

/-- How many octets things take that are put in one after the other. -/
def Put.totalSize (ps : List Put) : Nat := ps.foldr (·.size + ·) 0

namespace Writer

/-- A writer after a run that began with nothing written. -/
def puts (ps : List Put) : Writer := empty.steps (ps.map Put.step)

@[simp] theorem octets_puts (ps : List Put) : (puts ps).octets = ps.flatMap Put.octets := by
  rw [puts, octets_steps, List.flatMap_map]
  rfl

theorem length_puts (ps : List Put) : (puts ps).length = Put.totalSize ps := by
  rw [length, octets_puts]
  induction ps with
  | nil => rfl
  | cons p ps ih =>
    rw [List.flatMap_cons, List.length_append, Put.length_octets, ih]
    rfl

end Writer

/-! ## Reading -/

/-- The steps of reading that fit a thing put in, and what they answer. Zeros and padding may be
    read as octets or stepped over. -/
inductive Put.ReadBy : Put → ReadStep → ReadValue → Prop
  | u8 (v : UInt8) : ReadBy (.value (.u8 v)) .u8 (.number 1 v.toNat)
  | u16 (v : UInt16) : ReadBy (.value (.u16 v)) .u16 (.number 2 v.toNat)
  | u32 (v : UInt32) : ReadBy (.value (.u32 v)) .u32 (.number 4 v.toNat)
  | u64 (v : UInt64) : ReadBy (.value (.u64 v)) .u64 (.number 8 v.toNat)
  | octets (bs : Octets) : ReadBy (.value (.octets bs)) (.octets bs.length) (.octets bs)
  | zeros (n : Nat) : ReadBy (.value (.zeros n)) (.octets n) (.octets (OpenFlow.zeros n))
  | skipZeros (n : Nat) : ReadBy (.value (.zeros n)) (.skip n) .none
  | padding (length : Nat) :
      ReadBy (.padding length) (.octets (gap length)) (.octets (OpenFlow.padding length))
  | skipPadding (length : Nat) : ReadBy (.padding length) (.skip (gap length)) .none

/-- Whatever is put in, there is a step that fits. -/
theorem Put.exists_readBy (p : Put) : ∃ r v, p.ReadBy r v := by
  rcases p with (v | v | v | v | bs | count) | length
  · exact ⟨_, _, .u8 v⟩
  · exact ⟨_, _, .u16 v⟩
  · exact ⟨_, _, .u32 v⟩
  · exact ⟨_, _, .u64 v⟩
  · exact ⟨_, _, .octets bs⟩
  · exact ⟨_, _, .zeros count⟩
  · exact ⟨_, _, .padding length⟩

/-- The steps of reading that fit a run, with what they answer. -/
def Put.AllReadBy : List Put → List (ReadStep × ReadValue) → Prop :=
  List.Forall₂ fun p r => p.ReadBy r.1 r.2

theorem Put.exists_allReadBy (ps : List Put) : ∃ rs, AllReadBy ps rs := by
  induction ps with
  | nil => exact ⟨[], .nil⟩
  | cons p ps ih =>
    obtain ⟨r, v, h⟩ := p.exists_readBy
    obtain ⟨rs, hrs⟩ := ih
    exact ⟨(r, v) :: rs, .cons h hrs⟩

namespace ReaderStack

/-- The readers after a run. -/
def after (s : ReaderStack) (rs : List ReadStep) : ReaderStack :=
  ((s.steps rs).getLast?.map Prod.snd).getD s

theorem after_cons (s : ReaderStack) (r : ReadStep) (rs : List ReadStep) :
    s.after (r :: rs) = (s.step r).2.after rs := by
  unfold after
  rw [steps, List.getLast?_cons]
  cases ((s.step r).2.steps rs).getLast? <;> rfl

/-- The results of a run. -/
def results (s : ReaderStack) (rs : List ReadStep) : List (Except DecodeError ReadValue) :=
  (s.steps rs).map Prod.fst

theorem results_cons (s : ReaderStack) (r : ReadStep) (rs : List ReadStep) :
    s.results (r :: rs) = (s.step r).1 :: (s.step r).2.results rs := rfl

theorem read_of_reads {d : Decoder ReadValue} {bs : Octets} {v : ReadValue} (h : d.Reads bs v)
    (pos : Nat) (tail : Octets) (outer : List Cursor) :
    read ⟨⟨pos, bs ++ tail⟩, outer⟩ d = (.ok v, ⟨⟨pos + bs.length, tail⟩, outer⟩) := by
  simp [read, h tail pos]

end ReaderStack

/-- One octet is written as itself. -/
theorem bigEndian_one (v : UInt8) : bigEndian 1 v.toNat = [v] := by
  simp [bigEndian]

open Decoder in
/-- A step that fits answers what was put in, and ends where the octets of it do. -/
theorem Put.ReadBy.step {p : Put} {r : ReadStep} {v : ReadValue} (h : p.ReadBy r v) (pos : Nat)
    (tail : Octets) (outer : List Cursor) :
    ReaderStack.step ⟨⟨pos, p.octets ++ tail⟩, outer⟩ r =
      (.ok v, ⟨⟨pos + p.octets.length, tail⟩, outer⟩) := by
  have hoctets (n : Nat) : (Decoder.octets n).Reads (OpenFlow.zeros n) (OpenFlow.zeros n) := by
    have h := reads_octets (OpenFlow.zeros n)
    rwa [length_zeros] at h
  have hskip (n : Nat) : (skip n).Reads (OpenFlow.zeros n) () := reads_skip (length_zeros n)
  have hu8 (v : UInt8) : Decoder.u8.Reads [v] v := by
    have h := reads_u8 v
    rwa [bigEndian_one] at h
  cases h with
  | u8 v => exact ReaderStack.read_of_reads ((hu8 v).map fun v => .number 1 v.toNat) ..
  | u16 v => exact ReaderStack.read_of_reads ((reads_u16 v).map fun v => .number 2 v.toNat) ..
  | u32 v => exact ReaderStack.read_of_reads ((reads_u32 v).map fun v => .number 4 v.toNat) ..
  | u64 v => exact ReaderStack.read_of_reads ((reads_u64 v).map fun v => .number 8 v.toNat) ..
  | octets bs => exact ReaderStack.read_of_reads ((reads_octets bs).map .octets) ..
  | zeros n => exact ReaderStack.read_of_reads ((hoctets n).map .octets) ..
  | skipZeros n => exact ReaderStack.read_of_reads ((hskip n).map fun _ => .none) ..
  | padding length => exact ReaderStack.read_of_reads ((hoctets (gap length)).map .octets) ..
  | skipPadding length =>
    exact ReaderStack.read_of_reads ((hskip (gap length)).map fun _ => .none) ..

/-- A run of steps that fit answers what was put in, in order, and ends where the octets of the run
    do. -/
theorem Put.AllReadBy.run {ps : List Put} {rs : List (ReadStep × ReadValue)} (h : AllReadBy ps rs)
    (pos : Nat) (tail : Octets) (outer : List Cursor) :
    let s : ReaderStack := ⟨⟨pos, ps.flatMap Put.octets ++ tail⟩, outer⟩
    s.results (rs.map Prod.fst) = rs.map (fun r => .ok r.2) ∧
      s.after (rs.map Prod.fst) =
        ⟨⟨pos + (ps.flatMap Put.octets).length, tail⟩, outer⟩ := by
  induction h generalizing pos with
  | nil => exact ⟨rfl, rfl⟩
  | @cons p r ps rs hp _ ih =>
    have hstep := hp.step pos (ps.flatMap Put.octets ++ tail) outer
    obtain ⟨hresults, hafter⟩ := ih (pos + p.octets.length)
    simp only [List.map_cons, List.flatMap_cons, List.append_assoc, ReaderStack.results_cons,
      ReaderStack.after_cons, hstep, hresults, hafter, List.length_append, Nat.add_assoc, and_self]

/-! ## The two together -/

/-- What was put into an empty writer is what its octets are read as: the steps of reading that fit
    the run answer each value in order, and leave a reader with nothing to come. At every point of
    the run, the length of the writer is the sum of the lengths of what was put in. Its octets are
    those of what was put in, one after the other, and it appends just these to any buffer. Padding
    may as well be stepped over as the readers of elements do. -/
theorem writer_and_reader_inverse (ps : List Put) :
    (∃ rs, Put.AllReadBy ps rs) ∧
      (∀ rs, Put.AllReadBy ps rs →
        let s := ReaderStack.start (Writer.puts ps).octets
        s.results (rs.map Prod.fst) = rs.map (fun r => .ok r.2) ∧
          s.after (rs.map Prod.fst) = ⟨⟨(Writer.puts ps).length, []⟩, []⟩) ∧
      (∀ n, (Writer.puts (ps.take n)).length = Put.totalSize (ps.take n)) ∧
      (Writer.puts ps).octets = ps.flatMap Put.octets ∧
      (∀ buffer, (Writer.puts ps).finishInto buffer = buffer ++ (Writer.puts ps).octets) ∧
      ∀ e length, (Decoder.skipPadding e length).Reads (Put.octets (.padding length)) () := by
  refine ⟨Put.exists_allReadBy ps, fun rs h => ?_, fun n => Writer.length_puts _,
    Writer.octets_puts ps, fun buffer => rfl, fun e length => Decoder.reads_skipPadding length⟩
  have hrun := h.run 0 [] []
  rw [List.append_nil, Nat.zero_add] at hrun
  rw [Writer.octets_puts, Writer.length, Writer.octets_puts]
  exact hrun

example :
    let w := Writer.puts [.value (.u16 0x0102), .padding 5, .value (.u8 7)]
    (ReaderStack.start w.octets).results [.u16, .skip 3, .u8] =
      [.ok (.number 2 0x0102), .ok .none, .ok (.number 1 7)] := rfl

end OpenFlow
