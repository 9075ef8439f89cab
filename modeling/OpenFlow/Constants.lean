set_option autoImplicit false

/-! # Reserved numbers

The numbers to which the protocol gives a meaning of their own. Within each list they stand in the
order in which the protocol introduces them. -/

namespace OpenFlow

/-- The version that messages of this protocol carry. -/
def protocolVersion : UInt8 := 4

/-! ## Ports, groups, tables, meters and queues -/

/-- The largest number of a switch port. -/
def Port.max : UInt32 := 0xffffff00
/-- The port that a packet came in by. -/
def Port.inPort : UInt32 := 0xfffffff8
/-- The first flow table. -/
def Port.table : UInt32 := 0xfffffff9
/-- Forwarding without flow tables. -/
def Port.normal : UInt32 := 0xfffffffa
/-- All ports of a VLAN but the one that a packet came in by. -/
def Port.flood : UInt32 := 0xfffffffb
/-- All ports but the one that a packet came in by. -/
def Port.all : UInt32 := 0xfffffffc
/-- The controller. -/
def Port.controller : UInt32 := 0xfffffffd
/-- The local networking stack. -/
def Port.local : UInt32 := 0xfffffffe
/-- No port in particular. -/
def Port.any : UInt32 := 0xffffffff

/-- The largest number of a group. -/
def Group.max : UInt32 := 0xffffff00
/-- All groups. -/
def Group.all : UInt32 := 0xfffffffc
/-- No group in particular. -/
def Group.any : UInt32 := 0xffffffff

/-- The largest number of a flow table. -/
def Table.max : UInt8 := 0xfe
/-- All flow tables. -/
def Table.all : UInt8 := 0xff

/-- The largest number of a meter. -/
def Meter.max : UInt32 := 0xffff0000
/-- The meter of packets that leave the fast path. -/
def Meter.slowpath : UInt32 := 0xfffffffd
/-- The meter of the connection to the controller. -/
def Meter.controller : UInt32 := 0xfffffffe
/-- All meters. -/
def Meter.all : UInt32 := 0xffffffff

/-- All queues of a port. -/
def Queue.all : UInt32 := 0xffffffff
/-- The rate of a queue without a rate. -/
def Queue.rateUnconfigured : UInt16 := 0xffff

/-! ## Packets -/

/-- The largest count of octets that may be asked for when a packet goes to the controller. -/
def PacketLength.max : UInt16 := 0xffe5
/-- The packet goes to the controller whole. -/
def PacketLength.noBuffer : UInt16 := 0xffff

/-- The bit that marks a VLAN id as set. -/
def VlanId.present : UInt16 := 0x1000
/-- No VLAN id. -/
def VlanId.none : UInt16 := 0

/-- The ethertype of IPv4. -/
def Ethertype.ipv4 : UInt16 := 0x0800
/-- The ethertype of ARP. -/
def Ethertype.arp : UInt16 := 0x0806
/-- The ethertype of a VLAN tag. -/
def Ethertype.vlan : UInt16 := 0x8100
/-- The ethertype of IPv6. -/
def Ethertype.ipv6 : UInt16 := 0x86dd
/-- The ethertype of MPLS. -/
def Ethertype.mpls : UInt16 := 0x8847
/-- The ethertype of MPLS multicast. -/
def Ethertype.mplsMulticast : UInt16 := 0x8848
/-- The ethertype of a service VLAN tag. -/
def Ethertype.serviceVlan : UInt16 := 0x88a8
/-- The ethertype of a backbone service tag. -/
def Ethertype.pbb : UInt16 := 0x88e7

/-! ## Matches -/

/-- The first class of fields that predate the protocol. -/
def OxmClass.legacy0 : UInt16 := 0x0000
/-- The second class of fields that predate the protocol. -/
def OxmClass.legacy1 : UInt16 := 0x0001
/-- The class of the protocol's own fields. -/
def OxmClass.basic : UInt16 := 0x8000
/-- The class of fields of experimenters. -/
def OxmClass.experimenter : UInt16 := 0xffff

/-- The match of one fixed layout, which is out of use. -/
def MatchType.standard : UInt16 := 0
/-- The match that is a list of fields. -/
def MatchType.oxm : UInt16 := 1

/-! ## By subject -/

/-- The reserved numbers by what they are numbers of. -/
def reservedNumbers : List (String × List Nat) :=
  [("port", [Port.max, Port.inPort, Port.table, Port.normal, Port.flood, Port.all,
      Port.controller, Port.local, Port.any].map UInt32.toNat),
    ("group", [Group.max, Group.all, Group.any].map UInt32.toNat),
    ("table", [Table.max, Table.all].map UInt8.toNat),
    ("meter", [Meter.max, Meter.slowpath, Meter.controller, Meter.all].map UInt32.toNat),
    ("queue", [Queue.all.toNat, Queue.rateUnconfigured.toNat]),
    ("controller_max_len", [PacketLength.max, PacketLength.noBuffer].map UInt16.toNat),
    ("vlan_id", [VlanId.present, VlanId.none].map UInt16.toNat),
    ("oxm_class", [OxmClass.legacy0, OxmClass.legacy1, OxmClass.basic,
      OxmClass.experimenter].map UInt16.toNat),
    ("match_type", [MatchType.standard, MatchType.oxm].map UInt16.toNat),
    ("ethertype", [Ethertype.ipv4, Ethertype.arp, Ethertype.vlan, Ethertype.ipv6, Ethertype.mpls,
      Ethertype.mplsMulticast, Ethertype.serviceVlan, Ethertype.pbb].map UInt16.toNat)]

end OpenFlow
