import OpenFlow.Capture.Detail
import OpenFlow.Capture.Error
import OpenFlow.Text.Json

set_option autoImplicit false

/-! # Decoding captures

A decoding tells what the records of a capture hold, which kinds had to be stepped over, and whether
the records keep the protocol's rules. -/

namespace OpenFlow

/-- A decoded record. -/
structure DecodedRecord where
  name : String
  /-- How many octets the record occupies; of a table feature property, those that it declares. -/
  length : Nat
  detail : String
  deriving DecidableEq, Repr

/-- What was decoded from a capture. -/
structure Decoding where
  family : CaptureFamily
  records : List DecodedRecord
  /-- The codes of the records of unknown kinds. -/
  skipped : List Nat
  /-- The rule that is broken, if one is. -/
  violation? : Option Violation
  deriving DecidableEq, Repr

namespace Decoding

/-- The rule that a check found broken. -/
def broken? : Except Violation Unit → Option Violation
  | .ok _ => none
  | .error v => some v

/-- Decodes a capture of records. -/
def ofSequence {α : Type} [Entry α] (describe : α → DecodedRecord) (family : CaptureFamily)
    (limits : Limits) (bs : Octets) : Except CaptureError Decoding := do
  let decode : Decoder (List α × List Nat) := Sequence.decodeKnown limits
  let (entries, skipped) ← (decode.run (.start bs)).1.mapError (.decode family)
  return ⟨family, entries.map describe, skipped, broken? (Entry.validateAll entries)⟩

/-- Decodes a capture of a match. -/
def ofMatch (limits : Limits) (bs : Octets) : Except CaptureError Decoding := do
  let m ← (Record.ofOctetsWithin limits bs : Except DecodeError Match).mapError
    (.decode .matchFields)
  let records := m.fields.toList.map fun f => ⟨f.kind.name, f.length, f.detail⟩
  return ⟨.matchFields, records, [], broken? m.validate⟩

/-- Decodes a capture. -/
def ofOctets (family : CaptureFamily) (limits : Limits) (bs : Octets) :
    Except CaptureError Decoding :=
  match family with
  | .actions =>
    ofSequence (fun a : Action => ⟨a.kind.name, a.length, a.detail⟩) family limits bs
  | .instructions =>
    ofSequence (fun i : Instruction => ⟨i.kind.name, i.length, i.detail⟩) family limits bs
  | .matchFields => ofMatch limits bs
  | .tableProperties =>
    ofSequence (fun p : TableProperty => ⟨p.kind.name, p.declaredLength, p.detail⟩) family limits bs
  | .queueProperties =>
    ofSequence (fun p : QueueProperty => ⟨p.kind.name, p.length, p.detail⟩) family limits bs

/-- Whether the records keep the protocol's rules. -/
def isValid (d : Decoding) : Bool := d.violation?.isNone

/-! ## Reports -/

/-- A decoding as JSON. -/
def toJson (d : Decoding) : Text.Json :=
  .members [("family", .text d.family.name),
    ("records", .items (d.records.map fun r =>
      .members [("name", .text r.name), ("length", .number r.length), ("detail", .text r.detail)])),
    ("skipped", .items (d.skipped.map .number)),
    ("validation_error", .optional (d.violation?.map Violation.message))]

/-- The lines that tell which kinds were stepped over. -/
def skippedLines (d : Decoding) : List String :=
  match d.skipped with
  | [] => []
  | codes => ["skipped kinds: " ++ ", ".intercalate (codes.map codeText)]

/-- A decoding as lines of text. -/
def lines (d : Decoding) : List String :=
  s!"{d.family.name} ({d.records.length} records)"
    :: d.records.flatMap (fun r => [s!"  {r.name} [{r.length} bytes]", "    " ++ r.detail])
    ++ d.skippedLines
    ++ ["validation: " ++ (d.violation?.map Violation.message).getD "ok"]

/-- A decoding as text, without the end of the last line. -/
def pretty (d : Decoding) : String := "\n".intercalate d.lines

end Decoding

end OpenFlow
