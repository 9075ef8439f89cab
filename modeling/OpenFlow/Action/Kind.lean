set_option autoImplicit false

/-! # Kinds of actions -/

namespace OpenFlow

/-- A kind of action. -/
inductive ActionKind where
  | output | copyTtlOut | copyTtlIn | setMplsTtl | decMplsTtl | pushVlan | popVlan | pushMpls
  | popMpls | setQueue | group | setNwTtl | decNwTtl | setField | pushPbb | popPbb | experimenter
  deriving DecidableEq, Repr

namespace ActionKind

/-- All kinds, in the order of their codes. -/
def all : List ActionKind :=
  [.output, .copyTtlOut, .copyTtlIn, .setMplsTtl, .decMplsTtl, .pushVlan, .popVlan, .pushMpls,
    .popMpls, .setQueue, .group, .setNwTtl, .decNwTtl, .setField, .pushPbb, .popPbb, .experimenter]

/-- The code that announces a kind. -/
def code : ActionKind → Nat
  | .output => 0
  | .copyTtlOut => 11
  | .copyTtlIn => 12
  | .setMplsTtl => 15
  | .decMplsTtl => 16
  | .pushVlan => 17
  | .popVlan => 18
  | .pushMpls => 19
  | .popMpls => 20
  | .setQueue => 21
  | .group => 22
  | .setNwTtl => 23
  | .decNwTtl => 24
  | .setField => 25
  | .pushPbb => 26
  | .popPbb => 27
  | .experimenter => 0xffff

/-- The protocol's name of a kind. -/
def name : ActionKind → String
  | .output => "output"
  | .copyTtlOut => "copy_ttl_out"
  | .copyTtlIn => "copy_ttl_in"
  | .setMplsTtl => "set_mpls_ttl"
  | .decMplsTtl => "dec_mpls_ttl"
  | .pushVlan => "push_vlan"
  | .popVlan => "pop_vlan"
  | .pushMpls => "push_mpls"
  | .popMpls => "pop_mpls"
  | .setQueue => "set_queue"
  | .group => "group"
  | .setNwTtl => "set_nw_ttl"
  | .decNwTtl => "dec_nw_ttl"
  | .setField => "set_field"
  | .pushPbb => "push_pbb"
  | .popPbb => "pop_pbb"
  | .experimenter => "experimenter"

/-- The kind that a code announces. -/
def ofCode? (code : Nat) : Option ActionKind := all.find? (·.code == code)

/-- The kind of a name. -/
def ofName? (name : String) : Option ActionKind := all.find? (·.name == name)

/-- When actions of a set are carried out: the lower, the earlier. Actions of experimenters come
    last. -/
def priority : ActionKind → Nat
  | .copyTtlIn => 0x100
  | .popVlan | .popMpls | .popPbb => 0x200
  | .pushMpls => 0x300
  | .pushPbb => 0x400
  | .pushVlan => 0x500
  | .copyTtlOut => 0x600
  | .decMplsTtl | .decNwTtl => 0x700
  | .setMplsTtl | .setNwTtl | .setField => 0x800
  | .setQueue => 0x900
  | .group => 0xa00
  | .output => 0xb00
  | .experimenter => 0xc00

theorem ofCode?_code (k : ActionKind) : ofCode? k.code = some k := by
  cases k <;> rfl

end ActionKind

end OpenFlow
