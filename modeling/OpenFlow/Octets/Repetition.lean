import OpenFlow.Octets.Decoder

set_option autoImplicit false

/-! # Reading until the octets run out

Structures stand back to back up to the end of what holds them, and how many there may be is
bounded. `Decoder.untilEmpty` takes a step for each of them and carries a state along, which is
what was read so far. The bound is checked before each step.

The loop recurs on a number of steps that starts at the number of octets to come. A step that
succeeds takes at least one octet, so the steps do not run out before the octets do. -/

namespace OpenFlow.Decoder

variable {σ α : Type}

/-- Takes at most `steps` steps from the state `s`, as long as there is `room`. -/
def untilEmptyIn (overfull : DecodeError) (step : σ → Decoder σ) :
    (steps room : Nat) → (s : σ) → Decoder σ
  | 0, _, s => .succeed s
  | steps + 1, room, s => fun c =>
    if c.isEmpty then (.ok s, c)
    else match room with
      | 0 => (.error overfull, c)
      | room + 1 =>
        match (step s).run c with
        | (.ok s', c') => untilEmptyIn overfull step steps room s' c'
        | (.error e, c') => (.error e, c')

/-- Takes steps from the state `s` until the octets run out; a step beyond `bound` of them fails
    with `overfull`. -/
def untilEmpty (bound : Nat) (overfull : DecodeError) (step : σ → Decoder σ) (s : σ) :
    Decoder σ := fun c => untilEmptyIn overfull step c.remaining bound s c

/-- Reads values until the octets run out. -/
def many (bound : Nat) (overfull : DecodeError) (d : Decoder α) : Decoder (List α) := do
  let read ← untilEmpty bound overfull (fun read => do return (← d) :: read) []
  return read.reverse

/-- Reads a value, or the code of an unknown kind that was stepped over. -/
def known (d : Decoder α) : Decoder (Except Nat α) := fun c =>
  match d.run c with
  | (.ok a, c') => (.ok (.ok a), c')
  | (.error (.unknownKind _ code _), c') => (.ok (.error code), c')
  | (.error e, c') => (.error e, c')

/-- Reads values until the octets run out, and the codes of those of unknown kind. -/
def manyKnown (bound : Nat) (overfull : DecodeError) (d : Decoder α) :
    Decoder (List α × List Nat) := do
  let (read, skipped) ← untilEmpty bound overfull
    (fun (read, skipped) => do
      match ← known d with
      | .ok a => return (a :: read, skipped)
      | .error code => return (read, code :: skipped))
    (([] : List α), ([] : List Nat))
  return (read.reverse, skipped.reverse)

end OpenFlow.Decoder
