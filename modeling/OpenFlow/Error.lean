import OpenFlow.Element
import OpenFlow.Text.Hexadecimal

set_option autoImplicit false

/-! # What can go wrong

One type of failure per activity: reading (`DecodeError`), writing (`LengthOverflow`), checking
protocol rules (`Violation`) and looking up entries (`LookupError`). Each constructor is a cause
with the numbers that explain it; the wording is in the `message` functions. -/

namespace OpenFlow

open Text (hex hexFilled)

/-! ## Reading -/

/-- Why octets could not be read. -/
inductive DecodeError where
  /-- A read asked for more octets than were left. -/
  | endOfInput (requested available : Nat)
  /-- An element's fixed part, or the length it declares, reaches past the end. -/
  | truncated (element : Element) (needed available : Nat)
  /-- A well-formed element of `length` octets whose kind has no decoder; it was stepped over. -/
  | unknownKind (element : Element) (code length : Nat)
  /-- An element declares a length that its kind cannot have. -/
  | invalidLength (element : Element) (code length : Nat)
  /-- An element of another kind stands where one kind was expected. -/
  | kindMismatch (element : Element) (expected found : Nat)
  /-- Octets are left after the one element that was asked for. -/
  | trailingOctets (element : Element) (remaining : Nat)
  /-- A quantity grew past its limit. -/
  | limitExceeded (resource : Resource) (actual limit : Nat)
  /-- A keyed collection holds two entries of one key. -/
  | duplicateKey (container : Container) (key : Nat)
  deriving DecidableEq, Repr

/-- A code of a kind, as four digits. -/
def codeText (code : Nat) : String := hexFilled 4 code

/-- The wording of a reading failure. -/
def DecodeError.message : DecodeError → String
  | .endOfInput requested available =>
    s!"attempted to read {requested} bytes but only {available} bytes available"
  | .truncated element needed available =>
    s!"truncated {element.label}: need {needed} bytes, have {available}"
  | .unknownKind element code length =>
    s!"unknown {element.label} kind {codeText code} ({length} bytes skipped)"
  | .invalidLength element code length =>
    s!"invalid {element.label} length {length} for kind {codeText code}"
  | .kindMismatch element expected found =>
    s!"{element.label} kind mismatch: expected {codeText expected}, found {codeText found}"
  | .trailingOctets element remaining => s!"{remaining} trailing bytes after {element.label}"
  | .limitExceeded resource actual limit =>
    s!"{resource.label} limit exceeded: {actual} > {limit}"
  | .duplicateKey container key => s!"duplicated {container.label} key {hex key}"

/-! ## Writing -/

/-- The one reason why an element cannot be written: its length needs more than sixteen bits. -/
structure LengthOverflow where
  element : Element
  length : Nat
  deriving DecidableEq, Repr

/-- The wording of a writing failure. -/
def LengthOverflow.message (e : LengthOverflow) : String :=
  s!"{e.element.label} length {e.length} does not fit the 16-bit length field"

/-! ## Protocol rules -/

/-- What is wrong with a value. -/
inductive Fault where
  | outOfRange (value max : Nat)
  | reserved (value : Nat)
  /-- A VLAN id other than zero without the bit that marks a tag as present. -/
  | missingVlanPresent (value : Nat)
  | unsupportedEthertype (ethertype : Nat)
  /-- A value with bits set where its mask is clear. -/
  | invalidWildcard
  | maskNotAllowed
  deriving DecidableEq, Repr

/-- The wording of a fault. -/
def Fault.message : Fault → String
  | .outOfRange value max => s!"value {hex value} exceeds max {hex max}"
  | .reserved value => s!"reserved value {hex value}"
  | .missingVlanPresent value => s!"vlan id {codeText value} lacks the present bit"
  | .unsupportedEthertype ethertype => s!"unsupported ethertype {codeText ethertype}"
  | .invalidWildcard => "invalid wildcard"
  | .maskNotAllowed => "mask not allowed"

/-- A protocol rule that a value breaks; things are named as the protocol names them. -/
inductive Violation where
  | invalidValue (name : String) (fault : Fault)
  | duplicateAction (name : String)
  | duplicateInstruction (name : String)
  /-- A field is present without the field that it depends on. -/
  | missingPrerequisite (field required : String)
  deriving DecidableEq, Repr

/-- The wording of a broken rule. -/
def Violation.message : Violation → String
  | .invalidValue name fault => s!"invalid {name}: {fault.message}"
  | .duplicateAction name => s!"duplicated action type {name}"
  | .duplicateInstruction name => s!"duplicated instruction type {name}"
  | .missingPrerequisite field required => s!"{field} requires a matching {required}"

/-! ## Looking up -/

/-- Why an entry of a keyed collection was not found. -/
inductive LookupError where
  | keyNotFound (container : Container) (key : Nat)
  /-- There is no entry of the variant that was asked for. -/
  | entryNotFound (container : Container)
  deriving DecidableEq, Repr

/-- The wording of a look-up failure; a missing variant is told by its collection alone. -/
def LookupError.message : LookupError → String
  | .keyNotFound container key => s!"no {container.label} entry with key {hex key}"
  | .entryNotFound container => s!"no such entry in {container.label}"

end OpenFlow
