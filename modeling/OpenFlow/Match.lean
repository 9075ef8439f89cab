import OpenFlow.Header
import OpenFlow.Oxm.Field

set_option autoImplicit false

/-! # Matches

Which packets a flow entry is for: a set of match fields behind a header, whose length does not
cover the padding. A match keeps the protocol's rules when each of its fields does, and every field
that asks for something finds the field that it depends on, with a value that will do. -/

namespace OpenFlow

/-- A match: a set of fields. -/
structure Match where
  fields : KeyedSet Field
  deriving DecidableEq

namespace Match

/-- The length that the header declares: the padding is not counted. -/
def declaredLength (m : Match) : Nat := headerLength + m.fields.length

/-- How many octets a match occupies. -/
def length (m : Match) : Nat := padded m.declaredLength

/-- Writes a match, its fields in the order of their types. -/
def encode (m : Match) : Encoding :=
  .header .oxmMatch MatchType.oxm.toNat m.declaredLength
    ++ Sequence.encode m.fields.toList
    ++ .ofOctets (padding m.declaredLength)

/-- Reads a match. -/
def decode (limits : Limits) : Decoder Match := do
  let fields ← Decoder.elementPadded .oxmMatch MatchType.oxm.toNat
    (.atLeast headerLength fun _ => KeyedSet.decode limits)
  return ⟨fields⟩

/-! ## Rules -/

/-- The fields hold a field with a value that will do. -/
def meets (fields : KeyedSet Field) (p : Prerequisite) : Bool :=
  match (fields.get? p.field.oxmType).bind Field.exactValue? with
  | some value => p.requirement.accepts value
  | none => false

/-- A field that asks for something finds what it depends on. -/
def checkPrerequisite (fields : KeyedSet Field) (f : Field) : Except Violation Unit :=
  if f.isWildcard then .ok ()
  else match f.kind.prerequisite with
    | none => .ok ()
    | some p =>
      if meets fields p then .ok ()
      else .error (.missingPrerequisite f.kind.name p.field.name)

/-- Each field finds what it depends on. -/
def checkPrerequisites (m : Match) : Except Violation Unit :=
  validateEach (checkPrerequisite m.fields) m.fields.toList

/-- Checks the fields one by one, and then what they depend on. -/
def validate (m : Match) : Except Violation Unit := do
  Record.validate m.fields
  m.checkPrerequisites

/-- The matches mean the same. -/
def same (m n : Match) : Bool := m.fields.same n.fields

instance : Record Match where
  element := .oxmMatch
  decode := decode
  encode := encode
  length := length
  validate := validate

end Match

end OpenFlow
