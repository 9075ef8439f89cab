import OpenFlow.Oxm.Header
import OpenFlow.Oxm.Shape

set_option autoImplicit false

/-! # The match fields of the protocol

The forty fields of the basic class, each with its name, the shape of its value and whether a
mask may be given. What a field depends on is in `OpenFlow.Oxm.Prerequisite`, and which values it
may take in `OpenFlow.Oxm.Range`. -/

namespace OpenFlow

/-- A match field of the basic class; fields stand in the order of their numbers. -/
inductive OxmKind where
  | inPort | inPhyPort | metadata | ethDst | ethSrc | ethType | vlanVid | vlanPcp
  | ipDscp | ipEcn | ipProto | ipv4Src | ipv4Dst | tcpSrc | tcpDst | udpSrc
  | udpDst | sctpSrc | sctpDst | icmpv4Type | icmpv4Code | arpOp | arpSpa | arpTpa
  | arpSha | arpTha | ipv6Src | ipv6Dst | ipv6Flabel | icmpv6Type | icmpv6Code | ipv6NdTarget
  | ipv6NdSll | ipv6NdTll | mplsLabel | mplsTc | mplsBos | pbbIsid | tunnelId | ipv6Exthdr
  deriving DecidableEq, Repr

/-- What the protocol lays down about a match field. -/
structure FieldDescriptor where
  number : Nat
  name : String
  shape : Shape
  maskable : Bool
  deriving DecidableEq, Repr

namespace OxmKind

/-- The table of fields. -/
def descriptor : OxmKind → FieldDescriptor
  | .inPort => ⟨0, "in_port", .u32, false⟩
  | .inPhyPort => ⟨1, "in_phy_port", .u32, false⟩
  | .metadata => ⟨2, "metadata", .u64, true⟩
  | .ethDst => ⟨3, "eth_dst", .mac, true⟩
  | .ethSrc => ⟨4, "eth_src", .mac, true⟩
  | .ethType => ⟨5, "eth_type", .u16, false⟩
  | .vlanVid => ⟨6, "vlan_vid", .u16, true⟩
  | .vlanPcp => ⟨7, "vlan_pcp", .u8, false⟩
  | .ipDscp => ⟨8, "ip_dscp", .u8, false⟩
  | .ipEcn => ⟨9, "ip_ecn", .u8, false⟩
  | .ipProto => ⟨10, "ip_proto", .u8, false⟩
  | .ipv4Src => ⟨11, "ipv4_src", .ipv4, true⟩
  | .ipv4Dst => ⟨12, "ipv4_dst", .ipv4, true⟩
  | .tcpSrc => ⟨13, "tcp_src", .u16, false⟩
  | .tcpDst => ⟨14, "tcp_dst", .u16, false⟩
  | .udpSrc => ⟨15, "udp_src", .u16, false⟩
  | .udpDst => ⟨16, "udp_dst", .u16, false⟩
  | .sctpSrc => ⟨17, "sctp_src", .u16, false⟩
  | .sctpDst => ⟨18, "sctp_dst", .u16, false⟩
  | .icmpv4Type => ⟨19, "icmpv4_type", .u8, false⟩
  | .icmpv4Code => ⟨20, "icmpv4_code", .u8, false⟩
  | .arpOp => ⟨21, "arp_op", .u16, false⟩
  | .arpSpa => ⟨22, "arp_spa", .ipv4, true⟩
  | .arpTpa => ⟨23, "arp_tpa", .ipv4, true⟩
  | .arpSha => ⟨24, "arp_sha", .mac, true⟩
  | .arpTha => ⟨25, "arp_tha", .mac, true⟩
  | .ipv6Src => ⟨26, "ipv6_src", .ipv6, true⟩
  | .ipv6Dst => ⟨27, "ipv6_dst", .ipv6, true⟩
  | .ipv6Flabel => ⟨28, "ipv6_flabel", .u32, true⟩
  | .icmpv6Type => ⟨29, "icmpv6_type", .u8, false⟩
  | .icmpv6Code => ⟨30, "icmpv6_code", .u8, false⟩
  | .ipv6NdTarget => ⟨31, "ipv6_nd_target", .ipv6, false⟩
  | .ipv6NdSll => ⟨32, "ipv6_nd_sll", .mac, false⟩
  | .ipv6NdTll => ⟨33, "ipv6_nd_tll", .mac, false⟩
  | .mplsLabel => ⟨34, "mpls_label", .u32, false⟩
  | .mplsTc => ⟨35, "mpls_tc", .u8, false⟩
  | .mplsBos => ⟨36, "mpls_bos", .u8, false⟩
  | .pbbIsid => ⟨37, "pbb_isid", .u24, true⟩
  | .tunnelId => ⟨38, "tunnel_id", .u64, true⟩
  | .ipv6Exthdr => ⟨39, "ipv6_exthdr", .u16, true⟩

/-- All fields, in the order of their numbers. -/
def all : List OxmKind :=
  [.inPort, .inPhyPort, .metadata, .ethDst, .ethSrc, .ethType, .vlanVid, .vlanPcp,
    .ipDscp, .ipEcn, .ipProto, .ipv4Src, .ipv4Dst, .tcpSrc, .tcpDst, .udpSrc,
    .udpDst, .sctpSrc, .sctpDst, .icmpv4Type, .icmpv4Code, .arpOp, .arpSpa, .arpTpa,
    .arpSha, .arpTha, .ipv6Src, .ipv6Dst, .ipv6Flabel, .icmpv6Type, .icmpv6Code, .ipv6NdTarget,
    .ipv6NdSll, .ipv6NdTll, .mplsLabel, .mplsTc, .mplsBos, .pbbIsid, .tunnelId, .ipv6Exthdr]

/-- The number of a field in the basic class. -/
def number (k : OxmKind) : Nat := k.descriptor.number

/-- The protocol's name of a field. -/
def name (k : OxmKind) : String := k.descriptor.name

/-- What kind of value a field carries. -/
def shape (k : OxmKind) : Shape := k.descriptor.shape

/-- Whether a mask may be given. -/
def maskable (k : OxmKind) : Bool := k.descriptor.maskable

/-! ## On the wire -/

/-- How many octets follow the header. -/
def payloadLength (k : OxmKind) (hasMask : Bool) : Nat :=
  if hasMask then 2 * k.shape.width else k.shape.width

/-- How many octets the field has, header included. -/
def encodedLength (k : OxmKind) (hasMask : Bool) : Nat := OxmHeader.width + k.payloadLength hasMask

/-- Class and number of the field. -/
def oxmType (k : OxmKind) : Nat := OxmClass.basic.toNat * 128 + k.number

/-- The header of the field. -/
def header (k : OxmKind) (hasMask : Bool) : OxmHeader :=
  .ofParts OxmClass.basic (UInt8.ofNat k.number) hasMask (UInt8.ofNat (k.payloadLength hasMask))

/-! ## Looking up -/

/-- The field of a number in the basic class. -/
def ofNumber? (n : Nat) : Option OxmKind := all[n]?

/-- The field that a header announces, if it is of the basic class. -/
def ofHeader? (h : OxmHeader) : Option OxmKind :=
  if h.fieldClass = OxmClass.basic.toNat then ofNumber? h.number else none

/-- The field of a type, of which the low 23 bits count. -/
def ofType? (oxmType : Nat) : Option OxmKind := ofHeader? (.ofType oxmType)

/-- The field of a name. -/
def ofName? (name : String) : Option OxmKind := all.find? (·.name == name)

theorem ofNumber?_number (k : OxmKind) : ofNumber? k.number = some k := by
  cases k <;> rfl

end OxmKind

end OpenFlow
