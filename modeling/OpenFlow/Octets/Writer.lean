import OpenFlow.Octets.Encoding

set_option autoImplicit false

/-! # Writers

A `Writer` is the octets written so far. `WriteStep` lists the values that can be written one by
one; `WriteStep.encoded` is what each adds. -/

namespace OpenFlow

/-- One thing to write. -/
inductive WriteStep where
  | u8 (value : UInt8)
  | u16 (value : UInt16)
  | u32 (value : UInt32)
  | u64 (value : UInt64)
  | octets (bs : Octets)
  /-- That many zeros. Their number has no bound here; counts near `2 ^ 64`, with which the number
      of octets written overflows a machine word, are outside this model. -/
  | zeros (count : Nat)
  deriving DecidableEq, Repr

/-- The octets that a step adds. -/
def WriteStep.encoded : WriteStep → Octets
  | .u8 value => [value]
  | .u16 value => bigEndian 2 value.toNat
  | .u32 value => bigEndian 4 value.toNat
  | .u64 value => bigEndian 8 value.toNat
  | .octets bs => bs
  | .zeros count => OpenFlow.zeros count

/-- The octets written so far. -/
structure Writer where
  octets : Octets
  deriving DecidableEq, Repr

namespace Writer

/-- A writer that nothing was written to. -/
def empty : Writer := ⟨[]⟩

/-- How many octets were written. -/
def length (w : Writer) : Nat := w.octets.length

/-- Whether nothing was written. -/
def isEmpty (w : Writer) : Bool := w.octets.isEmpty

/-- Writes octets as they are. -/
def push (w : Writer) (bs : Octets) : Writer := ⟨w.octets ++ bs⟩

/-- Writes one value. -/
def step (w : Writer) (s : WriteStep) : Writer := w.push s.encoded

/-- Writes values in order. -/
def steps (w : Writer) (ss : List WriteStep) : Writer := ss.foldl step w

/-- Writes an encoding, and tells whether it came to its end. An encoding that overflows leaves
    the octets that it produced before. -/
def write (w : Writer) (e : Encoding) : Except LengthOverflow Unit × Writer :=
  (match e.overflow with
    | some failure => .error failure
    | none => .ok (),
   w.push e.octets)

/-- Appends everything written to the octets of a buffer. -/
def finishInto (w : Writer) (buffer : Octets) : Octets := buffer ++ w.octets

/-- Each step adds its octets at the end, whatever stood there before. -/
theorem octets_steps (w : Writer) (ss : List WriteStep) :
    (w.steps ss).octets = w.octets ++ ss.flatMap WriteStep.encoded := by
  induction ss generalizing w with
  | nil => simp [steps]
  | cons s ss ih =>
    have h : w.steps (s :: ss) = (w.step s).steps ss := rfl
    rw [h, ih]
    simp [step, push]

end Writer

end OpenFlow
