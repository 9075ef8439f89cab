import OpenFlow.Oxm.Kind

set_option autoImplicit false

/-! # What a match field depends on

A field of an upper protocol layer makes sense only where the layers below are fixed: a TCP port
needs the IP protocol to be TCP, which needs the ethertype to be one of IP. Each field names the
one field that it depends on directly, and the values of that field that will do. -/

namespace OpenFlow

/-- Which values of a field will do. -/
inductive Requirement where
  /-- Any value. -/
  | present
  | oneOf (values : List Nat)
  | notEqual (value : Nat)
  deriving DecidableEq, Repr

/-- Whether a value will do. -/
def Requirement.accepts : Requirement → Nat → Bool
  | .present, _ => true
  | .oneOf values, v => values.contains v
  | .notEqual excluded, v => v != excluded

/-- A field that must be there, with a value that will do. -/
structure Prerequisite where
  field : OxmKind
  requirement : Requirement
  deriving DecidableEq, Repr

/-- A dependency on one of some values of a field. -/
def Prerequisite.on (field : OxmKind) (values : List Nat) : Prerequisite :=
  ⟨field, .oneOf values⟩

/-- A dependency on one of some ethertypes. -/
def Prerequisite.onEthertype (ethertypes : List UInt16) : Prerequisite :=
  .on .ethType (ethertypes.map UInt16.toNat)

/-- What a field depends on directly. -/
def OxmKind.prerequisite : OxmKind → Option Prerequisite
  | .inPhyPort => some ⟨.inPort, .present⟩
  | .vlanPcp => some ⟨.vlanVid, .notEqual VlanId.none.toNat⟩
  | .ipDscp | .ipEcn | .ipProto => some (.onEthertype [Ethertype.ipv4, Ethertype.ipv6])
  | .ipv4Src | .ipv4Dst => some (.onEthertype [Ethertype.ipv4])
  | .tcpSrc | .tcpDst => some (.on .ipProto [6])
  | .udpSrc | .udpDst => some (.on .ipProto [17])
  | .sctpSrc | .sctpDst => some (.on .ipProto [132])
  | .icmpv4Type | .icmpv4Code => some (.on .ipProto [1])
  | .arpOp | .arpSpa | .arpTpa | .arpSha | .arpTha => some (.onEthertype [Ethertype.arp])
  | .ipv6Src | .ipv6Dst | .ipv6Flabel | .ipv6Exthdr => some (.onEthertype [Ethertype.ipv6])
  | .icmpv6Type | .icmpv6Code => some (.on .ipProto [58])
  | .ipv6NdTarget => some (.on .icmpv6Type [135, 136])
  | .ipv6NdSll => some (.on .icmpv6Type [135])
  | .ipv6NdTll => some (.on .icmpv6Type [136])
  | .mplsLabel | .mplsTc | .mplsBos => some (.onEthertype [Ethertype.mpls, Ethertype.mplsMulticast])
  | .pbbIsid => some (.onEthertype [Ethertype.pbb])
  | .inPort | .metadata | .ethDst | .ethSrc | .ethType | .vlanVid | .tunnelId => none

end OpenFlow
