import OpenFlow.Capture.Error
import OpenFlow.Scan
import OpenFlow.Text.Columns
import OpenFlow.Text.Json

set_option autoImplicit false

/-! # Inspecting captures

An inspection tells where each record of a capture begins, what it announces itself as and how much
room it takes, and interprets nothing else. Of a match it tells the same about its fields. -/

namespace OpenFlow

/-- A record or a match field found in a capture. -/
structure Finding where
  offset : Nat
  /-- The code of the kind, or the type of the match field. -/
  code : Nat
  /-- The protocol's name, if it has one. -/
  name? : Option String
  /-- The match field, in a match. -/
  field? : Option OxmKind
  /-- The length that is declared. -/
  length : Nat
  /-- How many octets there are to the next one. -/
  stride : Nat
  deriving DecidableEq, Repr

/-- What was found in a capture. -/
structure Inspection where
  family : CaptureFamily
  totalOctets : Nat
  findings : List Finding
  deriving DecidableEq, Repr

namespace Inspection

/-- The findings that raw records come to, of which the first begins at `offset`. -/
def ofRecords (family : CaptureFamily) (offset : Nat) : List RawRecord → List Finding
  | [] => []
  | r :: rs =>
    ⟨offset, r.header.code, family.kindName? r.header.code, none, r.header.size, r.stride⟩
      :: ofRecords family (offset + r.stride) rs

/-- The findings that raw match fields come to, of which the first begins at `offset`. -/
def ofFields (offset : Nat) : List RawField → List Finding
  | [] => []
  | f :: fs =>
    let kind? := OxmKind.ofHeader? f.header
    ⟨offset, f.header.oxmType, kind?.map OxmKind.name, kind?, f.stride, f.stride⟩
      :: ofFields (offset + f.stride) fs

/-- What is found in a match: the fields up to its declared length. -/
def findFields (limits : Limits) (bs : Octets) : Except CaptureError (List Finding) := do
  let h ← ((Header.expect .oxmMatch).run (.start bs)).1.mapError .matchHeader
  if h.kind ≠ MatchType.oxm then
    throw (.matchType h.code)
  let fields := (bs.take h.size).drop headerLength
  let raw ← (Scan.oxmFields limits fields).mapError .matchFields
  return ofFields headerLength raw

/-- What is found in a capture. -/
def find (family : CaptureFamily) (limits : Limits) (bs : Octets) :
    Except CaptureError (List Finding) :=
  match family with
  | .matchFields => findFields limits bs
  | _ => do
    let raw ← (Scan.records family.element family.framing limits bs).mapError (.scan family)
    return ofRecords family 0 raw

/-- Inspects a capture. -/
def ofOctets (family : CaptureFamily) (limits : Limits) (bs : Octets) :
    Except CaptureError Inspection := do
  return ⟨family, bs.length, ← find family limits bs⟩

end Inspection

/-! ## Reports -/

/-- A finding as JSON. -/
def Finding.toJson (f : Finding) : Text.Json :=
  .members ([("offset", .number f.offset), ("code", .number f.code), ("name", .optional f.name?)]
    ++ f.field?.toList.map (fun k => ("field", .text k.name))
    ++ [("length", .number f.length), ("stride", .number f.stride)])

/-- An inspection as JSON. -/
def Inspection.toJson (i : Inspection) : Text.Json :=
  .members [("family", .text i.family.name), ("total_bytes", .number i.totalOctets),
    ("records", .items (i.findings.map Finding.toJson))]

/-- A finding as a line of a table. -/
def Finding.line (f : Finding) : String :=
  let name := Text.padRight 22 (f.name?.getD "unknown")
  s!"  @{Text.padRight 5 (toString f.offset)} {Text.hexFilled 8 f.code} {name}"
    ++ s!" length {Text.padLeft 5 (toString f.length)} stride {Text.padLeft 5 (toString f.stride)}"

/-- An inspection as lines of text. -/
def Inspection.lines (i : Inspection) : List String :=
  s!"{i.family.name}: {i.findings.length} records in {i.totalOctets} bytes"
    :: i.findings.map Finding.line

end OpenFlow
