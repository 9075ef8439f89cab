import OpenFlow.Capture.Family
import OpenFlow.Capture.HexText
import OpenFlow.Text.Glob

set_option autoImplicit false

/-! # What can go wrong with a capture

Each error is told from the outside in: what was being done, what failed in doing it, and so on to
the cause. -/

namespace OpenFlow

/-- Why a capture could not be reported on. -/
inductive CaptureError where
  /-- The records of a family could not be told apart. -/
  | scan (family : CaptureFamily) (cause : DecodeError)
  | matchHeader (cause : DecodeError)
  /-- A match that is not a list of fields. -/
  | matchType (code : Nat)
  | matchFields (cause : DecodeError)
  | decode (family : CaptureFamily) (cause : DecodeError)
  | hexText (cause : HexError)
  /-- A file could not be read, for the reason given. -/
  | unreadable (path reason : String)
  | hexFile (path : String) (cause : HexError)
  /-- The files of a directory could not be listed, for the reason given. -/
  | unlisted (path reason : String)
  | badPattern (cause : Text.Glob.Error)
  deriving DecidableEq, Repr

namespace CaptureError

/-- The wording of an error, from the outside in. -/
def messages : CaptureError → List String
  | scan family cause => ["scan " ++ family.name, cause.message]
  | matchHeader cause => ["read match header", cause.message]
  | matchType code => [s!"unsupported match type {code}"]
  | matchFields cause => ["scan oxm fields", cause.message]
  | decode family cause => ["decode " ++ family.contents, cause.message]
  | hexText cause => cause.messages
  | unreadable path reason => ["read capture " ++ path, reason]
  | hexFile path cause => ("parse hex in " ++ path) :: cause.messages
  | unlisted path reason => ["read dir " ++ path, reason]
  | badPattern cause => ["invalid glob pattern", cause.message]

/-- The wording of an error on one line. -/
def message (e : CaptureError) : String := ": ".intercalate e.messages

end CaptureError

end OpenFlow
