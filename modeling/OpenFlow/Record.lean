import OpenFlow.Limits
import OpenFlow.Octets.Decoder
import OpenFlow.Octets.Encoding

set_option autoImplicit false

/-! # Records

What every decoded structure has in common. A `Record` is read, written, measured and checked; an
`Entry` may stand in a sequence of its kind; a `Keyed` entry may stand in a set, where its key
decides its place.

Reading never checks protocol rules: a decoded record reproduces the wire, and `validate` is asked
for separately. Likewise `=` compares records as they are, while `Entry.same` compares what they
mean, so that a mask of all ones is the same as no mask. -/

namespace OpenFlow

/-- A structure with a wire format. -/
class Record (α : Type) where
  /-- What the structure is called in errors. -/
  element : Element
  /-- Reads one record with the collections in it bounded by limits. -/
  decode : Limits → Decoder α
  /-- Writes the record. -/
  encode : α → Encoding
  /-- How many octets the record occupies, padding included. -/
  length : α → Nat
  /-- Checks the protocol's rules on values. -/
  validate : α → Except Violation Unit

/-- A record that may stand in a sequence of its kind. -/
class Entry (α : Type) extends Record α where
  /-- What bounds the number of entries in one sequence. -/
  resource : Resource
  /-- The two entries mean the same. -/
  same : α → α → Bool
  /-- Checks the entries of a sequence, and the rules between them. -/
  validateAll : List α → Except Violation Unit

/-- A record that may stand in a set. -/
class Keyed (α : Type) extends Entry α where
  container : Container
  /-- Where the entry stands in a set, which holds one entry for each key. -/
  key : α → Nat
  /-- The entry means the same as no entry. -/
  vacuous : α → Bool

/-- A family of records of several kinds. -/
class Kinded (α : Type) where
  Kind : Type
  /-- All kinds, in ascending order of their codes. -/
  kinds : List Kind
  /-- The code that announces a kind. -/
  code : Kind → Nat
  /-- The protocol's name of a kind. -/
  name : Kind → String
  kind : α → Kind
  /-- Reads a record of one kind. -/
  decodeAs : Limits → Kind → Decoder α
  /-- The two kinds share one form, so that a decoder of the one reads the other too. -/
  alike : Kind → Kind → Bool

namespace Kinded

/-- The codes of all kinds, with their names. -/
def table (α : Type) [Kinded α] : List (Nat × String) :=
  (kinds : List (Kind α)).map fun k => (code k, name k)

/-- The kind of a name. -/
def ofName? (α : Type) [Kinded α] (s : String) : Option (Kind α) :=
  (kinds : List (Kind α)).find? fun k => name k == s

/-- The record has the form of the kind of a name. -/
def isNamed {α : Type} [Kinded α] (s : String) (a : α) : Bool :=
  (ofName? α s).any (alike (kind a))

end Kinded

namespace Record

variable {α : Type} [Record α]

/-- Reads one record that takes up all the octets. -/
def ofOctetsWithin (limits : Limits) (bs : Octets) : Except DecodeError α :=
  match (Record.decode limits : Decoder α).run (.start bs) with
  | (.ok a, c) =>
    if c.isEmpty then .ok a else .error (.trailingOctets (Record.element α) c.remaining)
  | (.error e, _) => .error e

/-- Reads one record that takes up all the octets, under the standard limits. -/
def ofOctets (bs : Octets) : Except DecodeError α := ofOctetsWithin .standard bs

/-- The octets of a record. -/
def octets (a : α) : Except LengthOverflow Octets := (Record.encode a).toExcept

/-- A record that keeps the protocol's rules. -/
def checked (a : α) : Except Violation α := do
  Record.validate a
  return a

end Record

/-- Checks each of the values, and answers the first fault. -/
def validateEach {α : Type} (validate : α → Except Violation Unit) : List α → Except Violation Unit
  | [] => .ok ()
  | a :: as => do
    validate a
    validateEach validate as

/-- Checks each of the values, and that none clashes with one before it; `seen` holds those checked
    before. The answer is the first fault, a value's own before its clash. -/
def validateDistinct {α : Type} (validate : α → Except Violation Unit) (clash : α → α → Bool)
    (repeated : α → Violation) : (seen : List α) → List α → Except Violation Unit
  | _, [] => .ok ()
  | seen, a :: as => do
    validate a
    if seen.any (clash · a) then
      throw (repeated a)
    validateDistinct validate clash repeated (a :: seen) as

/-- Two sequences are of one length and mean the same entry by entry. -/
def sameAll {α : Type} (same : α → α → Bool) : List α → List α → Bool
  | [], [] => true
  | a :: as, b :: bs => same a b && sameAll same as bs
  | _, _ => false

end OpenFlow
