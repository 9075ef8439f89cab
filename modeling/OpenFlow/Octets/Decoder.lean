import OpenFlow.Octets.Cursor

set_option autoImplicit false

/-! # Decoders

A `Decoder` reads a value from a cursor. It answers the value, or the reason why there is none,
together with the cursor as it was left: after a failure too, since a caller that steps over an
element continues from there. Sequencing stops at the first failure and keeps its cursor.

`Decoder.within` confines a decoder to the next octets, so that an element cannot read into its
neighbour. -/

namespace OpenFlow

/-- A reader of values: the result, and the cursor it leaves behind in either case. -/
def Decoder (α : Type) : Type := Cursor → Except DecodeError α × Cursor

namespace Decoder

variable {α β : Type}

/-- Reads from `c`. -/
def run (d : Decoder α) (c : Cursor) : Except DecodeError α × Cursor := d c

/-- Reads nothing and answers `a`. -/
def succeed (a : α) : Decoder α := fun c => (.ok a, c)

/-- Reads nothing and fails. -/
def fail (e : DecodeError) : Decoder α := fun c => (.error e, c)

/-- Reads with `d`, then with the decoder that its value selects. -/
def andThen (d : Decoder α) (f : α → Decoder β) : Decoder β := fun c =>
  match d.run c with
  | (.ok a, c') => (f a).run c'
  | (.error e, c') => (.error e, c')

instance : Monad Decoder where
  pure := succeed
  bind := andThen

/-! ## Octets and numbers -/

/-- The next `n` octets. -/
def octets (n : Nat) : Decoder Octets := fun c =>
  if c.Holds n then (.ok (c.rest.take n), c.advance n)
  else (.error (.endOfInput n c.remaining), c)

/-- The next `width` octets as one number. -/
def word (width : Nat) : Decoder Nat := do
  let bs ← octets width
  return bs.toNat

/-- The next octet. -/
def u8 : Decoder UInt8 := do return UInt8.ofNat (← word 1)

/-- The next two octets. -/
def u16 : Decoder UInt16 := do return UInt16.ofNat (← word 2)

/-- The next four octets. -/
def u32 : Decoder UInt32 := do return UInt32.ofNat (← word 4)

/-- The next eight octets. -/
def u64 : Decoder UInt64 := do return UInt64.ofNat (← word 8)

/-- Steps over `n` octets. -/
def skip (n : Nat) : Decoder Unit := do
  let _ ← octets n

/-! ## Looking ahead, to the end, and within bounds -/

/-- All octets to come, without moving. -/
def rest : Decoder Octets := fun c => (.ok c.rest, c)

/-- All octets to come. -/
def remainder : Decoder Octets := fun c => (.ok c.rest, ⟨c.pos + c.remaining, []⟩)

/-- What `d` would answer; the cursor stays. -/
def ahead (d : Decoder α) : Decoder α := fun c => ((d.run c).1, c)

/-- Reads the next `n` octets with `d`, which sees nothing else; what `d` leaves is passed over. -/
def within (n : Nat) (d : Decoder α) : Decoder α := do
  let bs ← octets n
  fun c => ((d.run (.start bs)).1, c)

/-! ## Running -/

@[simp] theorem run_pure (a : α) (c : Cursor) : (pure a : Decoder α).run c = (.ok a, c) := rfl

@[simp] theorem run_fail (e : DecodeError) (c : Cursor) :
    (fail e : Decoder α).run c = (.error e, c) := rfl

theorem run_bind (d : Decoder α) (f : α → Decoder β) (c : Cursor) :
    (d >>= f).run c = match d.run c with
      | (.ok a, c') => (f a).run c'
      | (.error e, c') => (.error e, c') := rfl

end Decoder

end OpenFlow
