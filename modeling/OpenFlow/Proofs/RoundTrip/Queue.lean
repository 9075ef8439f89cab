import OpenFlow.Queue
import OpenFlow.Proofs.Framing
import OpenFlow.Proofs.Record

set_option autoImplicit false

/-! # Queues are read back

The data of an experimenter's property takes up the rest of the property, and fills up a multiple of
eight octets by its type, so what is read is never refused (`QueueProperty.carries`). A queue has
its own length after its numbers (`PacketQueue.carriesAlone`). -/

namespace OpenFlow

theorem QueuePropertyKind.code_lt (k : QueuePropertyKind) : k.code < 65536 := by
  cases k <;> decide

/-! ## Properties -/

namespace QueueProperty

instance : Composite QueueProperty where
  lengthFields p := [p.length]
  collections _ := []

theorem length_le_of_fit {p : QueueProperty} (h : LengthsFit p) : p.length ≤ 0xffff :=
  h p.length List.mem_cons_self

/-- The octets of a property, where its length does not overflow. -/
def octets (p : QueueProperty) : Octets :=
  bigEndian 2 p.kind.code ++ bigEndian 2 p.length ++ p.body

theorem writes_encode {p : QueueProperty} (h : p.length ≤ 0xffff) : p.encode.Writes p.octets :=
  (Encoding.writes_header .queueProperty p.kind.code h).append (Encoding.writes_ofOctets p.body)

theorem length_eq_body (p : QueueProperty) : p.length = headerLength + p.body.length := by
  cases p with
  | minRate rate => simp [length, body, headerLength]
  | maxRate rate => simp [length, body, headerLength]
  | experimenter number data => simp [length, body, headerLength, ← Nat.add_assoc]

@[simp] theorem length_octets (p : QueueProperty) : p.octets.length = p.length :=
  Header.length_headed p.kind.code p.length_eq_body

theorem octets_ne_nil (p : QueueProperty) : p.octets ≠ [] := Header.headed_ne_nil _ _ _

/-- A property that holds a rate is read back; the filler after the rate is passed over. -/
theorem reads_holdingRate {p : QueueProperty} {make : UInt16 → QueueProperty} {rate : UInt16}
    (hmake : make rate = p) (hbody : p.body = zeros 4 ++ bigEndian 2 rate.toNat ++ zeros 6) :
    (Decoder.element .queueProperty p.kind.code (holdingRate make)).Reads p.octets p := by
  have hlength : p.length = 16 := by
    rw [length_eq_body, hbody]
    simp [headerLength]
  have hrate := ((Decoder.reads_u16 rate).map make).after_zeros 4
  have hsize := p.length_eq_body
  rw [hmake] at hrate
  rw [hlength] at hsize
  rw [octets, hlength]
  exact Decoder.reads_fixed p.kind.code_lt (by decide) hsize hbody hrate

/-- Data that fills up its octets is taken as it is. -/
theorem reads_decodeExperimenter (h : Header) (number : UInt32) (data : AlignedData) :
    (decodeExperimenter h).ReadsBefore [] (experimenter number data).body
      (experimenter number data) := by
  have hdata : (do
      let bs ← Decoder.remainder
      if aligned : bs.length % alignment = 0 then
        return experimenter number ⟨bs, aligned⟩
      else
        Decoder.fail (.invalidLength .queueProperty QueuePropertyKind.experimenter.code h.size) :
      Decoder QueueProperty).ReadsBefore [] data.octets (experimenter number data) := by
    intro pos
    rw [Decoder.run_bind_ok (Decoder.readsBefore_remainder data.octets pos), dif_pos data.aligned]
    rfl
  unfold decodeExperimenter
  rw [body, List.append_assoc, List.append_assoc]
  exact ((Decoder.reads_u32 number).bindBefore (hdata.after_zeros 4)).after_zeros 4

/-- A decoder of one kind reads the properties of that kind. -/
theorem reads_decodeAs {p : QueueProperty} (hlength : p.length ≤ 0xffff) :
    (decodeAs p.kind).Reads p.octets p := by
  cases p with
  | minRate rate => exact reads_holdingRate rfl rfl
  | maxRate rate => exact reads_holdingRate rfl rfl
  | experimenter number data =>
    exact Decoder.reads_atLeast (QueuePropertyKind.code_lt _) (Nat.lt_succ_of_le hlength)
      (length_eq_body _) (Nat.le_add_right 16 _) (reads_decodeExperimenter _ number data)

/-- The decoder of all kinds reads a property back from its octets. -/
theorem reads_decode {p : QueueProperty} (hlength : p.length ≤ 0xffff) :
    decode.Reads p.octets p := by
  refine Decoder.reads_expect_bind [] (List.append_nil _).symm p.kind.code_lt
    (Nat.lt_succ_of_le hlength) p.length_eq_body ?_
  simp only [Header.code_ofNats p.length p.kind.code_lt, QueuePropertyKind.ofCode?_code]
  exact reads_decodeAs hlength

theorem carries (limits : Limits) {p : QueueProperty} (hfit : LengthsFit p) :
    Carries limits p.octets p :=
  ⟨writes_encode (length_le_of_fit hfit), p.length_octets, reads_decode (length_le_of_fit hfit)⟩

/-- A sequence of properties is read back, if their lengths fit and there are not too many. -/
theorem carriesAlone {limits : Limits} {ps : List QueueProperty} (hfit : LengthsFit ps)
    (hcount : ps.length ≤ limits.of .properties) :
    CarriesAlone limits (ps.flatMap octets) ps :=
  Sequence.carriesAlone (fun _ hp => carries limits (hfit.of_mem hp)) (fun p _ => p.octets_ne_nil)
    hcount

end QueueProperty

/-! ## Queues of a port -/

namespace PacketQueue

instance : Composite PacketQueue where
  lengthFields q := q.length :: Composite.lengthFields q.properties
  collections q := Composite.collections q.properties

theorem length_le_of_fit {q : PacketQueue} (h : LengthsFit q) : q.length ≤ 0xffff :=
  h q.length List.mem_cons_self

theorem properties_fit {q : PacketQueue} (h : LengthsFit q) : LengthsFit q.properties :=
  fun n hn => h n (List.mem_cons_of_mem _ hn)

/-- The octets before the length. -/
def preamble (q : PacketQueue) : Octets := bigEndian 4 q.queueId.toNat ++ bigEndian 4 q.port.toNat

/-- The octets of a queue, where no length overflows. -/
def octets (q : PacketQueue) : Octets :=
  q.preamble ++ (bigEndian 2 q.length ++ (zeros 6 ++ q.properties.flatMap QueueProperty.octets))

theorem writes_encode {q : PacketQueue} (hfit : LengthsFit q) : q.encode.Writes q.octets := by
  have hproperties : (Sequence.encode q.properties).Writes
      (q.properties.flatMap QueueProperty.octets) :=
    Encoding.writes_concat fun p hp =>
      QueueProperty.writes_encode
        (QueueProperty.length_le_of_fit ((properties_fit hfit).of_mem hp))
  have hwrites := (((Encoding.writes_ofOctets q.preamble).append
    (Encoding.writes_lengthField .packetQueue (length_le_of_fit hfit))).append
      (Encoding.writes_ofOctets (zeros 6))).append hproperties
  rw [List.append_assoc, List.append_assoc] at hwrites
  exact hwrites

@[simp] theorem length_octets (q : PacketQueue) : q.octets.length = q.length := by
  have hproperties : (q.properties.flatMap QueueProperty.octets).length
      = Sequence.length q.properties :=
    Sequence.length_flatMap fun p _ => p.length_octets
  simp [octets, preamble, length, headerLength, hproperties, ← Nat.add_assoc]

theorem reads_decode {limits : Limits} {q : PacketQueue} (hfit : LengthsFit q)
    (hcount : q.properties.length ≤ limits.of .properties) : (decode limits).Reads q.octets q := by
  have hlength : q.length ≤ 0xffff := length_le_of_fit hfit
  have hlt : q.octets.length < 65536 := Nat.lt_succ_of_le (q.length_octets ▸ hlength)
  have hleast : headerLength ≤ q.octets.length := by
    rw [length_octets]
    exact Nat.le_add_right headerLength _
  have hopen : q.octets = q.preamble ++ (bigEndian 2 q.octets.length
      ++ (zeros 6 ++ q.properties.flatMap QueueProperty.octets)) := by
    rw [length_octets]
    rfl
  -- the length was looked at before, and is stepped over with the filler
  have hskip : (Decoder.skip 8).Reads (bigEndian 2 q.length ++ zeros 6) () :=
    Decoder.reads_skip (by simp)
  unfold decode
  refine Decoder.reads_measured hopen (by simp [preamble]) hlt hleast ?_
  rw [octets, preamble, List.append_assoc, ← List.append_assoc (bigEndian 2 q.length)]
  refine (Decoder.reads_u32 q.queueId).bindBefore ?_
  refine (Decoder.reads_u32 q.port).bindBefore ?_
  refine hskip.bindBefore ?_
  exact (QueueProperty.carriesAlone (properties_fit hfit) hcount).reads.map
    (PacketQueue.mk q.queueId q.port)

theorem carriesAlone {limits : Limits} {q : PacketQueue} (hfit : LengthsFit q)
    (hlimits : limits.Admits q) : CarriesAlone limits q.octets q := by
  have hproperties : limits.Admits q.properties := hlimits
  exact ⟨writes_encode hfit, q.length_octets, reads_decode hfit hproperties.length_le []⟩

end PacketQueue

end OpenFlow
