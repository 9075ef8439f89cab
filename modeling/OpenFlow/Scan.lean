import OpenFlow.Header
import OpenFlow.Limits
import OpenFlow.Octets.Repetition
import OpenFlow.Oxm.Header

set_option autoImplicit false

/-! # Raw records

A look at a buffer of records that asks only where each begins and ends. Nothing is interpreted
beyond headers, so records of unknown kinds are found like any others. -/

namespace OpenFlow

/-- A record in a buffer. -/
structure RawRecord where
  header : Header
  /-- The octets after the header, up to the length that it declares. -/
  body : Octets
  /-- How many octets the record occupies, padding included. -/
  stride : Nat
  deriving DecidableEq, Repr

/-- A match field in a buffer. -/
structure RawField where
  header : OxmHeader
  /-- The value, and the mask if there is one. -/
  payload : Octets
  deriving DecidableEq, Repr

/-- Reads a record without interpreting it. Its stride is told from its length, and is how many
    octets fewer are to come after it (`RawRecord.stride_eq_of_run`). -/
def RawRecord.decode (element : Element) (framing : Framing) : Decoder RawRecord := do
  let h ← Header.expect element
  Decoder.skip headerLength
  let body ← Decoder.octets (h.size - headerLength)
  if framing = .paddingExcluded then
    Decoder.skipPadding element h.size
  return ⟨h, body, framing.stride h.size⟩

/-- Reads a match field without interpreting it. -/
def RawField.decode : Decoder RawField := do
  let h ← OxmHeader.expect
  Decoder.skip OxmHeader.width
  let payload ← Decoder.octets h.payloadLength
  return ⟨h, payload⟩

/-- How many octets a match field occupies. -/
def RawField.stride (f : RawField) : Nat := OxmHeader.width + f.header.payloadLength

namespace Scan

/-- Reads structures to the end of a buffer that is not too large and does not hold too many. -/
def buffer {α : Type} (limits : Limits) (d : Decoder α) (bs : Octets) :
    Except DecodeError (List α) :=
  if limits.of .bufferOctets < bs.length then
    .error (.limitExceeded .bufferOctets bs.length (limits.of .bufferOctets))
  else
    let bound := limits.of .records
    ((Decoder.many bound (.limitExceeded .records (bound + 1) bound) d).run (.start bs)).1

/-- The records of a buffer. -/
def records (element : Element) (framing : Framing) (limits : Limits) (bs : Octets) :
    Except DecodeError (List RawRecord) :=
  buffer limits (RawRecord.decode element framing) bs

/-- The match fields of a buffer. -/
def oxmFields (limits : Limits) (bs : Octets) : Except DecodeError (List RawField) :=
  buffer limits RawField.decode bs

end Scan

end OpenFlow
