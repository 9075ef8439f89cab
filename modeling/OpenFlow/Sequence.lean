import OpenFlow.Octets.Repetition
import OpenFlow.Record

set_option autoImplicit false

/-! # Sequences of records

Entries of one kind that stand back to back until the octets run out. A sequence is read entry by
entry (`Sequence.decode`), or with the entries of unknown kind stepped over and their codes kept
(`Sequence.decodeKnown`). Either way the number of entries, those stepped over included, is
bounded. -/

namespace OpenFlow.Sequence

variable {α : Type}

/-! ## Reading -/

section Reading

variable [Entry α]

/-- The error of an entry too many. -/
def overfull (α : Type) [Entry α] (limits : Limits) : DecodeError :=
  let limit := limits.of (Entry.resource α)
  .limitExceeded (Entry.resource α) (limit + 1) limit

/-- Reads entries until the octets run out. -/
def decode (limits : Limits) : Decoder (List α) :=
  Decoder.many (limits.of (Entry.resource α)) (overfull α limits) (Record.decode limits)

/-- Reads entries until the octets run out, steps over those of unknown kind, and answers their
    codes beside the entries. An entry with an unknown record inside it is stepped over whole. -/
def decodeKnown (limits : Limits) : Decoder (List α × List Nat) :=
  Decoder.manyKnown (limits.of (Entry.resource α)) (overfull α limits) (Record.decode limits)

end Reading

/-! ## Writing -/

section Writing

variable [Record α]

/-- Writes the entries in order. -/
def encode (as : List α) : Encoding := Encoding.concat Record.encode as

/-- How many octets the entries occupy. -/
def length (as : List α) : Nat := as.foldr (Record.length · + ·) 0

end Writing

instance [Entry α] : Record (List α) where
  element := Record.element α
  decode := decode
  encode := encode
  length := length
  validate := Entry.validateAll

/-- The sequences mean the same, entry by entry. -/
def same [Entry α] (as bs : List α) : Bool := sameAll Entry.same as bs

/-! ## Editing -/

/-- Puts `a` before the entry at `index`; there is no place past the end. -/
def insertAt? (as : List α) (index : Nat) (a : α) : Option (List α) :=
  if index ≤ as.length then some (as.insertIdx index a) else none

/-- Takes out the entry at `index`. -/
def removeAt (as : List α) (index : Nat) : Option α × List α :=
  (as[index]?, as.eraseIdx index)

/-- Takes out the last entry. -/
def removeLast (as : List α) : Option α × List α :=
  (as.getLast?, as.dropLast)

/-- Puts `a` in place of the first entry that `p` holds of, and answers that entry. -/
def replaceFirst (p : α → Bool) (a : α) : List α → Option α × List α
  | [] => (none, [])
  | b :: bs =>
    if p b then (some b, a :: bs)
    else
      let (old, bs') := replaceFirst p a bs
      (old, b :: bs')

end OpenFlow.Sequence
