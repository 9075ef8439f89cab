import OpenFlow.Oxm.Prerequisite
import OpenFlow.Oxm.Range
import OpenFlow.KeyedSet

set_option autoImplicit false

/-! # Match fields

A `Field` is a field of the protocol with a value and perhaps a mask. A mask of all ones is as good
as none (`Field.isExact`), and a mask of zeros matches everything (`Field.isWildcard`), so in a set
it means the same as no field. Masks are nevertheless kept as they are. -/

namespace OpenFlow

/-- A match field: its kind, its value, and the mask that tells which bits count. -/
structure Field where
  kind : OxmKind
  value : Value kind.shape
  mask : Option (Value kind.shape)
  deriving DecidableEq

namespace Field

/-! ## Meaning -/

/-- Whether there is a mask. -/
def hasMask (f : Field) : Bool := f.mask.isSome

/-- The mask, unless it is of all ones. -/
def effectiveMask (f : Field) : Option (Value f.kind.shape) :=
  f.mask.filter (!·.isAllOnes)

/-- All bits of the value count. -/
def isExact (f : Field) : Bool := f.effectiveMask.isNone

/-- No bit of the value counts. -/
def isWildcard (f : Field) : Bool := f.mask.any (·.isZero)

/-- The number that the field asks for, if it asks for one number. -/
def exactValue? (f : Field) : Option Nat := if f.isExact then f.value.toNat? else none

/-- The field with its mask dropped if the mask is of all ones. -/
def normal (f : Field) : Field := { f with mask := f.effectiveMask }

/-- The fields mean the same. -/
def same (f g : Field) : Bool := f.normal == g.normal

/-! ## Reading and writing -/

/-- The header of the field. -/
def header (f : Field) : OxmHeader := f.kind.header f.hasMask

/-- How many octets the field has. -/
def length (f : Field) : Nat := f.kind.encodedLength f.hasMask

/-- The octets of the field. -/
def octets (f : Field) : Octets :=
  f.header.octets ++ f.value.octets ++
    match f.mask with
    | some mask => mask.octets
    | none => []

/-- Reads a field of one kind. -/
def decodeAs (k : OxmKind) : Decoder Field := do
  let h ← OxmHeader.expect
  if h.oxmType ≠ k.oxmType then
    Decoder.fail (.kindMismatch .oxmField k.oxmType h.oxmType)
  if h.payloadLength ≠ k.payloadLength h.hasMask then
    Decoder.fail (.invalidLength .oxmField h.oxmType h.payloadLength)
  Decoder.skip OxmHeader.width
  let value ← Value.read k.shape
  if h.hasMask then
    let mask ← Value.read k.shape
    return ⟨k, value, some mask⟩
  else
    return ⟨k, value, none⟩

/-- Reads a field of any kind; one that is not of the protocol is stepped over. -/
def decode : Decoder Field := do
  let h ← OxmHeader.expect
  match OxmKind.ofHeader? h with
  | some k => decodeAs k
  | none =>
    Decoder.skip (OxmHeader.width + h.payloadLength)
    Decoder.fail (.unknownKind .oxmField h.oxmType (OxmHeader.width + h.payloadLength))

/-! ## Rules -/

/-- A mask is given only where one may be, and leaves out no bit of the value. -/
def checkMask (f : Field) : Except Fault Unit :=
  match f.mask with
  | none => .ok ()
  | some mask =>
    if !f.kind.maskable then .error .maskNotAllowed
    else if !f.value.fits mask then .error .invalidWildcard
    else .ok ()

/-- Checks mask and value. -/
def validate (f : Field) : Except Violation Unit :=
  (do f.checkMask; f.kind.checkValue f.value.toNat : Except Fault Unit).mapError
    (.invalidValue f.kind.name)

instance : Keyed Field where
  element := .oxmField
  decode _ := decode
  encode f := .ofOctets f.octets
  length := length
  validate := validate
  resource := .oxmFields
  same := same
  validateAll := validateEach validate
  container := .oxmFieldSet
  key f := f.kind.oxmType
  vacuous := isWildcard

instance : Kinded Field where
  Kind := OxmKind
  kinds := OxmKind.all
  code := OxmKind.oxmType
  name := OxmKind.name
  kind := kind
  decodeAs _ := decodeAs
  alike k l := k == l

end Field

end OpenFlow
