import OpenFlow.Oxm.Kind

set_option autoImplicit false

/-! # Which values a match field may take

Some fields are narrower than the octets that carry them, and the numbers of ports and VLANs have
reserved values. -/

namespace OpenFlow

/-- A value is at most `max`. -/
def checkAtMost (max value : Nat) : Except Fault Unit :=
  if max < value then .error (.outOfRange value max) else .ok ()

/-- A value is the number of a port of the switch. -/
def checkPhysicalPort (value : Nat) : Except Fault Unit :=
  if value = 0 then .error (.reserved 0) else checkAtMost Port.max.toNat value

/-- A value is a port that packets come in by. -/
def checkInPort (value : Nat) : Except Fault Unit :=
  if value = Port.local.toNat ∨ value = Port.controller.toNat then .ok ()
  else checkPhysicalPort value

/-- A value is a VLAN id marked as present, or none. -/
def checkVlanVid (value : Nat) : Except Fault Unit := do
  checkAtMost 0x1fff value
  if value ≠ VlanId.none.toNat ∧ value / VlanId.present.toNat % 2 = 0 then
    throw (.missingVlanPresent value)

/-- The value of a field is one that the field may take. -/
def OxmKind.checkValue (k : OxmKind) (value : Nat) : Except Fault Unit :=
  match k with
  | .inPort => checkInPort value
  | .inPhyPort => checkPhysicalPort value
  | .vlanVid => checkVlanVid value
  | .vlanPcp | .mplsTc => checkAtMost 7 value
  | .ipDscp => checkAtMost 0x3f value
  | .ipEcn => checkAtMost 3 value
  | .ipv6Flabel | .mplsLabel => checkAtMost 0xfffff value
  | .mplsBos => checkAtMost 1 value
  | .ipv6Exthdr => checkAtMost 0x1ff value
  | _ => .ok ()

end OpenFlow
