import OpenFlow.Error
import OpenFlow.Octets.BigEndian

set_option autoImplicit false

/-! # A position in a run of octets

A `Cursor` is the octets not read yet, with the number of octets read before them. It moves only
forward, by as many octets as a read returns. `Cursor.Holds` is the question every read begins
with; it looks no further than it has to, so that reading a buffer takes time linear in its
length. -/

namespace OpenFlow

/-- A place in a run of octets: how many were passed, and those to come. -/
structure Cursor where
  pos : Nat
  rest : Octets
  deriving DecidableEq, Repr

namespace Cursor

/-- The start of a run of octets. -/
def start (octets : Octets) : Cursor := ⟨0, octets⟩

/-- How many octets are to come. -/
def remaining (c : Cursor) : Nat := c.rest.length

/-- Whether all octets were passed. -/
def isEmpty (c : Cursor) : Bool := c.rest.isEmpty

/-- The place `n` octets further on. -/
def advance (c : Cursor) (n : Nat) : Cursor := ⟨c.pos + n, c.rest.drop n⟩

/-- At least `n` octets are to come. -/
def Holds (c : Cursor) (n : Nat) : Prop := n ≤ c.remaining

/-- Looking at the octet before the `n`th place decides whether `n` octets are to come. -/
def reaches (c : Cursor) : Nat → Bool
  | 0 => true
  | n + 1 => !(c.rest.drop n).isEmpty

theorem reaches_iff (c : Cursor) (n : Nat) : c.reaches n = true ↔ c.Holds n := by
  cases n with
  | zero => simp [reaches, Holds]
  | succ n =>
    rw [reaches, Bool.not_eq_true', List.isEmpty_eq_false_iff, ne_eq, List.drop_eq_nil_iff,
      Nat.not_le]
    exact Iff.rfl

instance (c : Cursor) (n : Nat) : Decidable (c.Holds n) :=
  decidable_of_iff (c.reaches n = true) (c.reaches_iff n)

/-! ## Views -/

@[simp] theorem rest_start (octets : Octets) : (start octets).rest = octets := rfl

@[simp] theorem rest_advance (c : Cursor) (n : Nat) : (c.advance n).rest = c.rest.drop n := rfl

@[simp] theorem pos_advance (c : Cursor) (n : Nat) : (c.advance n).pos = c.pos + n := rfl

@[simp] theorem remaining_advance (c : Cursor) (n : Nat) :
    (c.advance n).remaining = c.remaining - n := by simp [remaining]

@[simp] theorem advance_zero (c : Cursor) : c.advance 0 = c := by simp [advance]

theorem advance_advance (c : Cursor) (m n : Nat) : (c.advance m).advance n = c.advance (m + n) := by
  simp [advance, Nat.add_assoc]

end Cursor

end OpenFlow
