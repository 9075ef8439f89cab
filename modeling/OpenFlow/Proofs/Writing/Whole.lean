import OpenFlow.Proofs.Writing.Exact

set_option autoImplicit false

/-! # What a failed writing leaves behind

The length of a record goes out before anything else of it but its kind, so a record that is too
long is refused before an octet was written. The queue of a port is the exception: its length comes
after its id and its port, and these stay in the writer when the length does not fit
(`SingleRecord.writtenWhole_iff`). -/

namespace OpenFlow

variable {α : Type}

/-- Writing either succeeds or leaves the writer as it was. -/
def Encoding.WrittenWhole (e : Encoding) : Prop :=
  ∀ (w w' : Writer) (failure : LengthOverflow), w.write e = (.error failure, w') → w' = w

theorem NeverOverflows.whole [Record α] (h : NeverOverflows α) (a : α) :
    (Record.encode a).WrittenWhole := by
  intro w w' failure hrun
  cases (h a w).symm.trans (congrArg Prod.fst hrun)

/-! ## Records that open with their length -/

namespace Encoding

theorem header_of_lt (element : Element) (code : Nat) {length : Nat} (h : 0xffff < length) :
    header element code length = ⟨[], some ⟨element, length⟩⟩ := if_neg (Nat.not_le_of_lt h)

theorem lengthField_of_lt (element : Element) {length : Nat} (h : 0xffff < length) :
    lengthField element length = ⟨[], some ⟨element, length⟩⟩ := if_neg (Nat.not_le_of_lt h)

end Encoding

namespace WrittenByLength

variable [Record α] [Announcing α] {declared : α → Nat}

/-- A record whose own length fits is written, so it is enough that one whose own length does not
    fit produces nothing. -/
theorem whole (h : WrittenByLength α declared)
    (hlong : ∀ a, 0xffff < declared a → (Record.encode a).octets = []) (a : α) :
    (Record.encode a).WrittenWhole := by
  intro w w' failure hrun
  have hdeclared : 0xffff < declared a := by
    refine Nat.lt_of_not_le fun hfits => ?_
    have hok := h.outcome a w
    rw [if_pos hfits, hrun] at hok
    cases hok
  have hleft : w.push (Record.encode a).octets = w' := congrArg Prod.snd hrun
  rw [← hleft, hlong a hdeclared, Writer.push, List.append_nil]

theorem whole_of_header (h : WrittenByLength α declared) {code : α → Nat} {rest : α → Encoding}
    (hencode : ∀ a, Record.encode a = .header (Record.element α) (code a) (declared a) ++ rest a)
    (a : α) : (Record.encode a).WrittenWhole := by
  refine h.whole (fun a hlong => ?_) a
  rw [hencode, Encoding.header_of_lt _ _ hlong]
  rfl

end WrittenByLength

theorem Field.whole (f : Field) : (Record.encode f).WrittenWhole :=
  (accounted.neverOverflows fun _ => List.forall_mem_nil _).whole f

theorem Action.whole (a : Action) : (Record.encode a).WrittenWhole :=
  (accounted.neverOverflows length_fits).whole a

theorem Instruction.whole (i : Instruction) : (Record.encode i).WrittenWhole :=
  written.whole_of_header (fun _ => rfl) i

theorem Bucket.whole (b : Bucket) : (Record.encode b).WrittenWhole := by
  refine written.whole (fun b hlong => ?_) b
  show b.encode.octets = []
  rw [encode, Encoding.lengthField_of_lt _ hlong]
  rfl

theorem QueueProperty.whole (p : QueueProperty) : (Record.encode p).WrittenWhole :=
  written.whole_of_header (fun _ => rfl) p

theorem TableProperty.whole (p : TableProperty) : (Record.encode p).WrittenWhole :=
  written.whole_of_header (fun _ => Encoding.append_assoc _ _ _) p

theorem Match.whole (m : Match) : (Record.encode m).WrittenWhole :=
  written.whole_of_header (fun _ => Encoding.append_assoc _ _ _) m

theorem KindId.whole {family : KindFamily} (id : KindId family) :
    (Record.encode id).WrittenWhole :=
  (written family).whole_of_header (fun _ => rfl) id

theorem IdSort.whole (s : IdSort) (id : s.Id) : (Record.encode id).WrittenWhole := by
  cases s with
  | instruction => exact KindId.whole id
  | table => exact (TableId.accounted.neverOverflows fun _ => List.forall_mem_nil _).whole id
  | action => exact KindId.whole id
  | oxm => exact (OxmId.accounted.neverOverflows fun _ => List.forall_mem_nil _).whole id

/-! ## Queues -/

namespace PacketQueue

theorem lengthsFit_of_length_le {q : PacketQueue} (h : q.length ≤ 0xffff) : LengthsFit q := by
  refine List.forall_mem_cons.2 ⟨h, fun n hn => ?_⟩
  obtain ⟨p, hp, hpn⟩ := List.mem_flatMap.1 hn
  obtain rfl := List.mem_singleton.1 hpn
  have hle : p.length ≤ Sequence.length q.properties := Sequence.le_length_of_mem hp
  exact Nat.le_trans (Nat.le_trans hle (Nat.le_add_left _ headerLength)) h

/-- The length of a queue whose one property is an experimenter's. -/
theorem length_alone (queueId port number : UInt32) (data : AlignedData) :
    (⟨queueId, port, [.experimenter number data]⟩ : PacketQueue).length
      = 32 + data.octets.length := by
  show 16 + (16 + data.octets.length + 0) = 32 + data.octets.length
  omega

/-- A queue that is too long leaves its id and its port in the writer. -/
theorem write_eq (q : PacketQueue) (w : Writer) :
    w.write (Record.encode q) = if q.length ≤ 0xffff then (.ok (), w.push q.octets)
      else (.error ⟨.packetQueue, q.length⟩, w.push q.preamble) := by
  by_cases hfits : q.length ≤ 0xffff
  · have hwrites : Record.encode q = .ofOctets q.octets :=
      writes_encode (lengthsFit_of_length_le hfits)
    rw [if_pos hfits, hwrites]
    rfl
  · have hlength := Encoding.lengthField_of_lt .packetQueue (Nat.lt_of_not_le hfits)
    have hencode : Record.encode q = ⟨q.preamble ++ [], some ⟨.packetQueue, q.length⟩⟩ := by
      show q.encode = _
      rw [encode, hlength]
      rfl
    rw [if_neg hfits, hencode, List.append_nil]
    rfl

theorem preamble_ne_nil (q : PacketQueue) : q.preamble ≠ [] := by
  intro hnone
  simpa [preamble] using congrArg List.length hnone

theorem whole_iff (q : PacketQueue) : (Record.encode q).WrittenWhole ↔ q.length ≤ 0xffff := by
  constructor
  · intro hwhole
    refine Decidable.byContradiction fun hlong => ?_
    have hleft := hwhole .empty _ _ ((q.write_eq .empty).trans (if_neg hlong))
    exact q.preamble_ne_nil (congrArg Writer.octets hleft)
  · intro hfits w w' failure hrun
    rw [q.write_eq, if_pos hfits] at hrun
    cases congrArg Prod.fst hrun

end PacketQueue

/-! ## Every family -/

/-- A record by itself, of any family. -/
inductive SingleRecord where
  | field (f : Field)
  | action (a : Action)
  | instruction (i : Instruction)
  | bucket (b : Bucket)
  | packetQueue (q : PacketQueue)
  | matching (m : Match)
  | tableProperty (p : TableProperty)
  | queueProperty (p : QueueProperty)
  | id (sort : IdSort) (value : sort.Id)

namespace SingleRecord

/-- Writes the record. -/
def encode : SingleRecord → Encoding
  | field f => Record.encode f
  | action a => Record.encode a
  | instruction i => Record.encode i
  | bucket b => Record.encode b
  | packetQueue q => Record.encode q
  | matching m => Record.encode m
  | tableProperty p => Record.encode p
  | queueProperty p => Record.encode p
  | id _ value => Record.encode value

/-- What comes before the length of a record other than its kind. -/
def beforeLength : SingleRecord → Octets
  | packetQueue q => q.preamble
  | _ => []

/-- Only a queue that is too long is not written whole. What a record leaves behind that is refused
    is what comes before its length: the id and the port of a queue, and nothing else. -/
theorem writtenWhole_iff (r : SingleRecord) :
    (r.encode.WrittenWhole ↔ ∀ q, r = packetQueue q → q.length ≤ 0xffff)
      ∧ ∀ (w w' : Writer) (failure : LengthOverflow),
        w.write r.encode = (.error failure, w') → w' = w.push r.beforeLength := by
  have hother {r : SingleRecord} (hwhole : r.encode.WrittenWhole)
      (hnone : r.beforeLength = []) :
      (r.encode.WrittenWhole ↔ ∀ q, r = packetQueue q → q.length ≤ 0xffff)
        ∧ ∀ (w w' : Writer) (failure : LengthOverflow),
          w.write r.encode = (.error failure, w') → w' = w.push r.beforeLength := by
    refine ⟨iff_of_true hwhole fun q hq => ?_, fun w w' failure hrun => ?_⟩
    · exact absurd ((congrArg beforeLength hq).symm.trans hnone) q.preamble_ne_nil
    · rw [hwhole w w' failure hrun, hnone, Writer.push, List.append_nil]
  cases r with
  | field f => exact hother f.whole rfl
  | action a => exact hother a.whole rfl
  | instruction i => exact hother i.whole rfl
  | bucket b => exact hother b.whole rfl
  | matching m => exact hother m.whole rfl
  | tableProperty p => exact hother p.whole rfl
  | queueProperty p => exact hother p.whole rfl
  | id sort value => exact hother (sort.whole value) rfl
  | packetQueue q =>
    refine ⟨q.whole_iff.trans ⟨fun hfits q' hq' => ?_, fun hfits => hfits q rfl⟩, ?_⟩
    · obtain rfl := SingleRecord.packetQueue.inj hq'
      exact hfits
    · intro w w' failure hrun
      have hwrite : w.write (Record.encode q) = (.error failure, w') := hrun
      rw [q.write_eq] at hwrite
      by_cases hfits : q.length ≤ 0xffff
      · rw [if_pos hfits] at hwrite
        cases congrArg Prod.fst hwrite
      · rw [if_neg hfits] at hwrite
        exact (congrArg Prod.snd hwrite).symm

/-- A queue whose one property, an experimenter's, is short enough by itself: the queue is an octet
    too long, and eight of its octets are written. -/
theorem not_writtenWhole_long_queue :
    let data : AlignedData := ⟨zeros 65504, by rw [length_zeros]; rfl⟩
    let q : PacketQueue := ⟨1, 2, [.experimenter 1 data]⟩
    q.length = 65536
      ∧ Writer.empty.write (packetQueue q).encode
        = (.error ⟨.packetQueue, 65536⟩, ⟨[0, 0, 0, 1, 0, 0, 0, 2]⟩)
      ∧ ¬ (packetQueue q).encode.WrittenWhole := by
  intro data q
  have hdata : data.octets.length = 65504 := length_zeros 65504
  have hlength : q.length = 65536 := (PacketQueue.length_alone 1 2 1 data).trans (by rw [hdata])
  have hlong : ¬ q.length ≤ 0xffff := by
    rw [hlength]
    decide
  refine ⟨hlength, ?_, fun hwhole => hlong (q.whole_iff.1 hwhole)⟩
  have hpreamble : bigEndian 4 1 ++ bigEndian 4 2 = [0, 0, 0, 1, 0, 0, 0, 2] := by decide
  rw [encode, q.write_eq, if_neg hlong, hlength,
    show q.preamble = [0, 0, 0, 1, 0, 0, 0, 2] from hpreamble]
  rfl

end SingleRecord

end OpenFlow
