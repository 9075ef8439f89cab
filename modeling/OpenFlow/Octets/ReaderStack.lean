import OpenFlow.Octets.Decoder

set_option autoImplicit false

/-! # Nested readers

Reading by single steps, with readers inside readers: `split` opens a reader confined to the next
octets, the steps that follow go to it, and `pop` returns to the reader that it was cut from, which
continues right after the cut. The outermost reader is never dropped. -/

namespace OpenFlow

/-- One step of reading. -/
inductive ReadStep where
  | u8 | u16 | u32 | u64
  /-- Looks at the next number without moving. -/
  | peekU16 | peekU32
  | octets (count : Nat)
  | skip (count : Nat)
  /-- Shows all octets to come without moving. -/
  | rest
  /-- Opens a reader confined to the next octets. -/
  | split (count : Nat)
  /-- Returns to the reader that this one was cut from. -/
  | pop
  deriving DecidableEq, Repr

/-- What a step read. -/
inductive ReadValue where
  | none
  | number (width value : Nat)
  | octets (bs : Octets)
  deriving DecidableEq, Repr

/-- The innermost reader, and those around it from the inside out. -/
structure ReaderStack where
  top : Cursor
  outer : List Cursor
  deriving DecidableEq, Repr

namespace ReaderStack

/-- One reader over all octets. -/
def start (octets : Octets) : ReaderStack := ⟨.start octets, []⟩

/-- How many readers are open. -/
def depth (s : ReaderStack) : Nat := s.outer.length + 1

/-- Reads from the innermost reader. -/
def read (s : ReaderStack) (d : Decoder ReadValue) : Except DecodeError ReadValue × ReaderStack :=
  let (result, top) := d.run s.top
  (result, { s with top })

/-- Takes one step. -/
def step (s : ReaderStack) : ReadStep → Except DecodeError ReadValue × ReaderStack
  | .u8 => s.read do return .number 1 (← Decoder.u8).toNat
  | .u16 => s.read do return .number 2 (← Decoder.u16).toNat
  | .u32 => s.read do return .number 4 (← Decoder.u32).toNat
  | .u64 => s.read do return .number 8 (← Decoder.u64).toNat
  | .peekU16 => s.read do return .number 2 (← Decoder.ahead Decoder.u16).toNat
  | .peekU32 => s.read do return .number 4 (← Decoder.ahead Decoder.u32).toNat
  | .octets count => s.read do return .octets (← Decoder.octets count)
  | .skip count => s.read do
    Decoder.skip count
    return .none
  | .rest => s.read do return .octets (← Decoder.rest)
  | .split count =>
    match (Decoder.octets count).run s.top with
    | (.ok bs, top) => (.ok .none, ⟨.start bs, top :: s.outer⟩)
    | (.error e, top) => (.error e, { s with top })
  | .pop =>
    match s.outer with
    | [] => (.ok .none, s)
    | parent :: outer => (.ok .none, ⟨parent, outer⟩)

/-- Takes steps in order; each is answered with its result and the readers after it. -/
def steps (s : ReaderStack) : List ReadStep → List (Except DecodeError ReadValue × ReaderStack)
  | [] => []
  | r :: rs =>
    let answer := s.step r
    answer :: answer.2.steps rs

end ReaderStack

end OpenFlow
