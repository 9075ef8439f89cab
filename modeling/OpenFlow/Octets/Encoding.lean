import OpenFlow.Error
import OpenFlow.Octets.BigEndian

set_option autoImplicit false

/-! # Encodings

What writing a value comes to: the octets that were produced, and, if a length did not fit its
sixteen-bit field, the overflow that ended the production. Encodings are appended in order, and
nothing is appended to one that has overflowed, so the octets of a failed encoding are those that
stood before the fault. An encoding says nothing of where it goes: see `Writer.write`. -/

namespace OpenFlow

/-- Octets produced in order, and the overflow that ended the production, if one did. -/
structure Encoding where
  octets : Octets
  overflow : Option LengthOverflow
  deriving DecidableEq, Repr

namespace Encoding

/-- Nothing to write. -/
def nil : Encoding := ⟨[], none⟩

/-- Octets that are written as they are. -/
def ofOctets (bs : Octets) : Encoding := ⟨bs, none⟩

/-- The first encoding, and then the second unless the first has overflowed. -/
def append (a b : Encoding) : Encoding :=
  match a.overflow with
  | some e => ⟨a.octets, some e⟩
  | none => ⟨a.octets ++ b.octets, b.overflow⟩

instance : Append Encoding := ⟨append⟩

/-- The encodings of `xs`, one after the other. -/
def concat {α : Type} (encode : α → Encoding) (xs : List α) : Encoding :=
  xs.foldr (fun x rest => encode x ++ rest) nil

/-- A length as the sixteen-bit field that announces it, or the overflow. -/
def lengthField (element : Element) (length : Nat) : Encoding :=
  if length ≤ 0xffff then ofOctets (bigEndian 2 length) else ⟨[], some ⟨element, length⟩⟩

/-- A kind code and the length of the element that it opens. Nothing of the header is written
    when the length does not fit. -/
def header (element : Element) (code length : Nat) : Encoding :=
  if length ≤ 0xffff then ofOctets (bigEndian 2 code ++ bigEndian 2 length)
  else ⟨[], some ⟨element, length⟩⟩

/-- The octets of an encoding that did not overflow. -/
def toExcept (e : Encoding) : Except LengthOverflow Octets :=
  match e.overflow with
  | some failure => .error failure
  | none => .ok e.octets

/-! ## A monoid -/

theorem append_eq (a b : Encoding) : a ++ b = a.append b := rfl

@[simp] theorem nil_append (a : Encoding) : nil ++ a = a := by
  cases a; simp [append_eq, append, nil]

@[simp] theorem append_nil (a : Encoding) : a ++ nil = a := by
  rcases a with ⟨bs, _ | e⟩ <;> simp [append_eq, append, nil]

theorem append_assoc (a b c : Encoding) : a ++ b ++ c = a ++ (b ++ c) := by
  rcases a with ⟨as, _ | e⟩ <;> rcases b with ⟨bs, _ | e'⟩ <;> simp [append_eq, append]

theorem ofOctets_append (as bs : Octets) :
    ofOctets (as ++ bs) = ofOctets as ++ ofOctets bs := rfl

end Encoding

end OpenFlow
