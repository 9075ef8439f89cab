import OpenFlow.Action.Basic
import OpenFlow.Proofs.Oxm.Field
import OpenFlow.Proofs.Record

set_option autoImplicit false

/-! # Actions are read back

An action has at most forty octets, so its length always fits into its header and writing an action
never fails (`Action.writes_encode`). Each kind of action is read back from its own octets
(`Action.reads_decodeAs`), and the decoder of all kinds finds the one that wrote them
(`Action.reads_decode`). Octets that a kind writes only to fill up its length are passed over with
the rest of the action. -/

namespace OpenFlow

theorem ActionKind.code_lt (k : ActionKind) : k.code < 65536 := by
  cases k <;> decide

namespace Action

instance : Composite Action where
  lengthFields a := [a.length]
  collections _ := []

/-! ## Lengths -/

theorem length_le (a : Action) : a.length ≤ 40 := by
  cases a with
  | setField field =>
    have hfield := field.length_le
    have hpad := padded_mod (headerLength + field.length)
    have hlt := padded_lt (headerLength + field.length)
    simp only [length, headerLength] at *
    omega
  | _ => simp [length]

theorem length_lt (a : Action) : a.length < 65536 := Nat.lt_of_le_of_lt a.length_le (by decide)

/-! ## Writing -/

/-- The octets of an action. -/
def octets (a : Action) : Octets :=
  bigEndian 2 a.kind.code ++ bigEndian 2 a.length ++ a.body

theorem writes_encode (a : Action) : a.encode.Writes a.octets :=
  (Encoding.writes_header .action a.kind.code (Nat.le_of_lt_succ a.length_lt)).append
    (Encoding.writes_ofOctets a.body)

theorem length_eq_body (a : Action) : a.length = headerLength + a.body.length := by
  cases a with
  | setField field =>
    rw [length, body, List.length_append, Field.length_octets, padded_eq, Nat.add_assoc]
  | _ => simp [length, body, headerLength]

@[simp] theorem length_octets (a : Action) : a.octets.length = a.length :=
  Header.length_headed a.kind.code a.length_eq_body

theorem octets_ne_nil (a : Action) : a.octets ≠ [] := Header.headed_ne_nil _ _ _

/-! ## Reading back -/

/-- An action of one length is read back if its parameters are, which filler may come after. -/
theorem reads_fixed {a : Action} {size : Nat} {params filler : Octets} {d : Decoder Action}
    (hsize : a.length = size) (hbody : a.body = params ++ filler) (hd : d.Reads params a) :
    (Decoder.element .action a.kind.code (.fixed size d)).Reads a.octets a := by
  subst hsize
  exact Decoder.reads_fixed a.kind.code_lt a.length_lt a.length_eq_body hbody hd

/-- The length of an action that sets a field is the one that its field asks for. -/
theorem reads_decodeSetField {field : Field} {h : Header}
    (hsize : h.size = padded (headerLength + field.length)) :
    (decodeSetField h).Reads field.octets (setField field) := by
  unfold decodeSetField
  rw [← List.append_nil field.octets]
  refine field.reads_decode.bind ?_
  show (if h.size ≠ padded (headerLength + field.length) then _ else _ : Decoder Action).Reads _ _
  rw [if_neg (not_not_intro hsize)]
  exact Decoder.reads_pure _

theorem reads_setField (field : Field) :
    (Decoder.element .action ActionKind.setField.code (.atLeast 8 decodeSetField)).Reads
      (setField field).octets (setField field) := by
  have hlt : (setField field).length < 65536 := length_lt _
  have hleast : 8 ≤ (setField field).length := by
    have hpad := padded_mod (headerLength + field.length)
    have hlength := padded_eq (headerLength + field.length)
    show 8 ≤ padded (headerLength + field.length)
    unfold headerLength at *
    omega
  have hfield : (decodeSetField (.ofNats ActionKind.setField.code (setField field).length)).Reads
      field.octets (setField field) :=
    reads_decodeSetField (Header.size_ofNats _ hlt)
  exact Decoder.reads_element (ActionKind.code_lt _) hlt (length_eq_body _) (decide_eq_true hleast)
    (hfield.result headerLength (padding (headerLength + field.length)))

/-- A decoder of one kind reads the actions of that kind. -/
theorem reads_decodeAs (a : Action) : (decodeAs a.kind).Reads a.octets a := by
  cases a with
  | output port maxLength =>
    have hlength := (Decoder.reads_u16 maxLength).map fun maxLength => output port maxLength
    exact reads_fixed rfl rfl ((Decoder.reads_u32 port).bind hlength)
  | setMplsTtl ttl => exact reads_fixed rfl rfl ((Decoder.reads_u8 ttl).map setMplsTtl)
  | setNwTtl ttl => exact reads_fixed rfl rfl ((Decoder.reads_u8 ttl).map setNwTtl)
  | pushVlan ethertype => exact reads_fixed rfl rfl ((Decoder.reads_u16 ethertype).map pushVlan)
  | pushMpls ethertype => exact reads_fixed rfl rfl ((Decoder.reads_u16 ethertype).map pushMpls)
  | popMpls ethertype => exact reads_fixed rfl rfl ((Decoder.reads_u16 ethertype).map popMpls)
  | pushPbb ethertype => exact reads_fixed rfl rfl ((Decoder.reads_u16 ethertype).map pushPbb)
  | setQueue queueId =>
    exact reads_fixed rfl (List.append_nil _).symm ((Decoder.reads_u32 queueId).map setQueue)
  | group groupId =>
    exact reads_fixed rfl (List.append_nil _).symm ((Decoder.reads_u32 groupId).map group)
  | setField field => exact reads_setField field
  -- no parameters: the whole body is filler
  | copyTtlOut => exact reads_fixed rfl (List.nil_append _).symm (Decoder.reads_pure copyTtlOut)
  | copyTtlIn => exact reads_fixed rfl (List.nil_append _).symm (Decoder.reads_pure copyTtlIn)
  | decMplsTtl => exact reads_fixed rfl (List.nil_append _).symm (Decoder.reads_pure decMplsTtl)
  | popVlan => exact reads_fixed rfl (List.nil_append _).symm (Decoder.reads_pure popVlan)
  | decNwTtl => exact reads_fixed rfl (List.nil_append _).symm (Decoder.reads_pure decNwTtl)
  | popPbb => exact reads_fixed rfl (List.nil_append _).symm (Decoder.reads_pure popPbb)

/-- The decoder of all kinds reads an action back from its octets. -/
theorem reads_decode (a : Action) : decode.Reads a.octets a := by
  refine Decoder.reads_expect_bind [] (List.append_nil _).symm a.kind.code_lt a.length_lt
    a.length_eq_body ?_
  simp only [Header.code_ofNats a.length a.kind.code_lt, ActionKind.ofCode?_code]
  exact a.reads_decodeAs

theorem carries (limits : Limits) (a : Action) : Carries limits a.octets a :=
  ⟨a.writes_encode, a.length_octets, a.reads_decode⟩

/-- A sequence of actions is read back, if there are not too many of them. -/
theorem carriesAlone (limits : Limits) (as : List Action)
    (h : as.length ≤ limits.of .actions) : CarriesAlone limits (as.flatMap octets) as :=
  Sequence.carriesAlone (fun a _ => a.carries limits) (fun a _ => a.octets_ne_nil) h

end Action

end OpenFlow
