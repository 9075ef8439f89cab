import OpenFlow.Proofs.Octets.Announcing
import OpenFlow.Proofs.Recoding.Match
import OpenFlow.Proofs.RoundTrip.Bucket
import OpenFlow.Proofs.RoundTrip.Instruction
import OpenFlow.Proofs.RoundTrip.Match
import OpenFlow.Proofs.RoundTrip.Queue
import OpenFlow.Proofs.RoundTrip.TableProperty

set_option autoImplicit false

/-! # How much is written, and when nothing can be

A record is written as exactly the octets that it says it has, whatever the writer holds, unless
one of the lengths in it does not fit into sixteen bits (`writing_is_exact`). A record is at least
as long as those inside it, so the length that it declares itself decides: no record inside can
overflow after the header of the outer one was written. Fields and actions are too short to
overflow, and so is every match, as there are but forty fields. -/

namespace OpenFlow

variable {α : Type}

/-! ## The lengths inside a record -/

/-- Records that announce lengths in fields of sixteen bits. Unlike `Composite.lengthFields` this
    tells what each is the length of, and leaves out none. -/
class Announcing (α : Type) where
  /-- What each length field has to hold and what it is the length of, in the order of the fields:
      the length of a record stands before those of the records in it. -/
  announced : α → List (Element × Nat)

open Announcing

instance [Announcing α] : Announcing (List α) where
  announced as := as.flatMap announced

instance [Announcing α] : Announcing (KeyedSet α) where
  announced s := announced s.toList

/-- Writing a record overflows at the first length in it that does not fit, and otherwise takes as
    many octets as the record is long; no length in it is greater. -/
structure Accounted (α : Type) [Record α] [Announcing α] : Prop where
  announces : ∀ a : α, (Record.encode a).Announces (announced a) (Record.length a)
  le_length : ∀ a : α, ∀ l ∈ announced a, l.2 ≤ Record.length a

/-! ## What a writer gets -/

/-- What writing a record comes to, whatever the writer holds. -/
structure WrittenExactly (α : Type) [Record α] [Announcing α] : Prop where
  /-- Writing succeeds if and only if every length in the record fits into sixteen bits. -/
  ok_iff : ∀ (a : α) (w : Writer),
    (w.write (Record.encode a)).1 = .ok () ↔ ∀ l ∈ announced a, l.2 ≤ 0xffff
  /-- The overflow that is reported is that of the first length that does not fit. -/
  error_iff : ∀ (a : α) (w : Writer) (e : LengthOverflow),
    (w.write (Record.encode a)).1 = .error e ↔ firstOverflow? (announced a) = some e
  /-- What is added depends on the record alone, and is as long as the record says. -/
  octets : ∀ a : α, (∀ l ∈ announced a, l.2 ≤ 0xffff) → ∃ bs : Octets,
    bs.length = Record.length a
      ∧ ∀ w : Writer, w.write (Record.encode a) = (.ok (), ⟨w.octets ++ bs⟩)

/-- Of the lengths in a record, the one that it declares itself decides whether it is written. -/
structure WrittenByLength (α : Type) [Record α] [Announcing α] (declared : α → Nat) : Prop extends
    WrittenExactly α where
  le_declared : ∀ a : α, ∀ l ∈ announced a, l.2 ≤ declared a
  outcome : ∀ (a : α) (w : Writer), (w.write (Record.encode a)).1
    = if declared a ≤ 0xffff then .ok () else .error ⟨Record.element α, declared a⟩

/-- No record of a type is ever too long to be written. -/
def NeverOverflows (α : Type) [Record α] : Prop :=
  ∀ (a : α) (w : Writer), (w.write (Record.encode a)).1 = .ok ()

/-- Every record of a type takes up a multiple of eight octets. -/
def Aligned (α : Type) [Record α] : Prop := ∀ a : α, Record.length a % 8 = 0

namespace Accounted

section Records

variable [Record α] [Announcing α]

theorem written (h : Accounted α) : WrittenExactly α where
  ok_iff a _ := (h.announces a).write_eq_ok_iff
  error_iff a _ _ := (h.announces a).write_eq_error_iff
  octets a := (h.announces a).exists_octets

theorem writtenByLength (h : Accounted α) {declared : α → Nat} {inner : α → List (Element × Nat)}
    (hannounced : ∀ a, announced a = (Record.element α, declared a) :: inner a)
    (hinner : ∀ a, ∀ l ∈ inner a, l.2 ≤ declared a) : WrittenByLength α declared where
  toWrittenExactly := h.written
  le_declared a := by
    rw [hannounced]
    exact List.forall_mem_cons.2 ⟨Nat.le_refl _, hinner a⟩
  outcome a w := by
    have hfirst := firstOverflow?_cons_of_le (Record.element α) (hinner a)
    rw [← hannounced] at hfirst
    by_cases hfits : declared a ≤ 0xffff
    · rw [if_pos hfits] at hfirst ⊢
      exact (h.written.ok_iff a w).2 (firstOverflow?_eq_none_iff.1 hfirst)
    · rw [if_neg hfits] at hfirst ⊢
      exact (h.written.error_iff a w _).2 hfirst

/-- A record that is a header and octets announces its length and no other. -/
theorem headed {code : α → Nat} {body : α → Octets}
    (hannounced : ∀ a : α, announced a = [(Record.element α, Record.length a)])
    (hencode : ∀ a : α, Record.encode a
      = .header (Record.element α) (code a) (Record.length a) ++ .ofOctets (body a))
    (hlength : ∀ a : α, Record.length a = headerLength + (body a).length) : Accounted α where
  announces a := by
    have h := (Encoding.announces_header (Record.element α) (code a) (Record.length a)).append
      (Encoding.announces_ofOctets (body a))
    rw [← hencode, ← headerLength, ← hlength] at h
    rwa [hannounced]
  le_length a := by
    rw [hannounced]
    exact List.forall_mem_singleton.2 (Nat.le_refl _)

theorem neverOverflows (h : Accounted α) (hfit : ∀ a : α, ∀ l ∈ announced a, l.2 ≤ 0xffff) :
    NeverOverflows α :=
  fun a w => (h.written.ok_iff a w).2 (hfit a)

/-! ## Sequences -/

theorem announces_sequence (h : Accounted α) (as : List α) :
    (Sequence.encode as).Announces (announced as) (Sequence.length as) :=
  Encoding.announces_concat fun a _ => h.announces a

theorem le_sequence_length (h : Accounted α) {as : List α} {l : Element × Nat}
    (hl : l ∈ announced as) : l.2 ≤ Sequence.length as := by
  obtain ⟨a, ha, hla⟩ := List.mem_flatMap.1 hl
  exact Nat.le_trans (h.le_length a l hla) (Sequence.le_length_of_mem ha)

end Records

theorem list [Entry α] [Announcing α] (h : Accounted α) : Accounted (List α) :=
  ⟨h.announces_sequence, fun _ _ => h.le_sequence_length⟩

theorem set [Keyed α] [Announcing α] (h : Accounted α) : Accounted (KeyedSet α) :=
  ⟨fun s => h.announces_sequence s.toList, fun _ _ => h.le_sequence_length⟩

end Accounted

theorem Aligned.sequence_length_mod [Record α] (h : Aligned α) (as : List α) :
    Sequence.length as % 8 = 0 := by
  induction as with
  | nil => rfl
  | cons a as ih =>
    have ha := h a
    rw [Sequence.length_cons]
    omega

/-! ## Fields -/

namespace Field

/-- The length of a field takes eight bits. -/
instance : Announcing Field where
  announced _ := []

theorem accounted : Accounted Field where
  announces f := by
    have h := Encoding.announces_ofOctets f.octets
    rwa [f.length_octets] at h
  le_length _ := List.forall_mem_nil _

theorem announced_list (fs : List Field) : announced fs = [] :=
  List.flatMap_eq_nil_iff.2 fun _ _ => rfl

theorem announced_le {fs : List Field} {l : Element × Nat} (hl : l ∈ announced fs) :
    l.2 ≤ 0xffff := by
  rw [announced_list] at hl
  cases hl

end Field

/-! ## Actions -/

namespace Action

instance : Announcing Action where
  announced a := [(.action, a.length)]

theorem length_fits (a : Action) : ∀ l ∈ announced a, l.2 ≤ 0xffff :=
  List.forall_mem_singleton.2 (Nat.le_of_lt_succ a.length_lt)

theorem announced_le {as : List Action} {l : Element × Nat} (hl : l ∈ announced as) :
    l.2 ≤ 0xffff := by
  obtain ⟨a, -, hla⟩ := List.mem_flatMap.1 hl
  exact a.length_fits l hla

theorem accounted : Accounted Action := .headed (fun _ => rfl) (fun _ => rfl) length_eq_body

theorem written : WrittenByLength Action length :=
  accounted.writtenByLength (fun _ => rfl) fun _ => List.forall_mem_nil _

theorem aligned : Aligned Action := by
  intro a
  show a.length % 8 = 0
  cases a with
  | setField field => exact padded_mod (headerLength + field.length)
  | _ => simp [length]

end Action

/-! ## Records that hold actions -/

namespace Instruction

instance : Announcing Instruction where
  announced i := (.instruction, i.length) :: announced i.actions

theorem actions_le_length {i : Instruction} {l : Element × Nat} (hl : l ∈ announced i.actions) :
    l.2 ≤ i.length := by
  have hle := Action.accounted.le_sequence_length hl
  cases i with
  | writeActions as | applyActions as => exact Nat.le_trans hle (Nat.le_add_left _ 8)
  | _ => cases hl

theorem accounted : Accounted Instruction where
  announces i := by
    have hfits : ∀ l ∈ announced i.actions, l.2 ≤ 0xffff := fun _ => Action.announced_le
    have h := (Encoding.announces_header .instruction i.kind.code i.length).append
      (i.writes_body.announces hfits)
    rw [show 4 + i.bodyOctets.length = i.length from i.length_eq_body.symm] at h
    exact h
  le_length i := List.forall_mem_cons.2 ⟨Nat.le_refl _, fun _ => actions_le_length⟩

theorem written : WrittenByLength Instruction length :=
  accounted.writtenByLength (fun _ => rfl) fun _ _ => actions_le_length

theorem aligned : Aligned Instruction := by
  have hactions (as : List Action) : (8 + Sequence.length as) % 8 = 0 := by
    rw [Nat.add_mod_left, Action.aligned.sequence_length_mod]
  intro i
  show i.length % 8 = 0
  cases i with
  | writeActions as => exact hactions as
  | applyActions as => exact hactions as
  | _ => simp [length]

end Instruction

namespace Bucket

instance : Announcing Bucket where
  announced b := (.bucket, b.length) :: announced b.actions

theorem actions_le_length {b : Bucket} {l : Element × Nat} (hl : l ∈ announced b.actions) :
    l.2 ≤ b.length :=
  Nat.le_trans (Action.accounted.le_sequence_length hl) (Nat.le_add_left _ headerLength)

theorem accounted : Accounted Bucket where
  announces b := by
    have h := ((Encoding.announces_lengthField .bucket b.length).append
      (Encoding.announces_ofOctets (bigEndian 2 b.weight.toNat ++ bigEndian 4 b.watchPort.toNat
        ++ bigEndian 4 b.watchGroup.toNat ++ zeros 4))).append
        (Action.accounted.announces_sequence b.actions)
    simp only [List.length_append, length_bigEndian, length_zeros] at h
    exact h
  le_length b := List.forall_mem_cons.2 ⟨Nat.le_refl _, fun _ => actions_le_length⟩

theorem written : WrittenByLength Bucket length :=
  accounted.writtenByLength (fun _ => rfl) fun _ _ => actions_le_length

theorem aligned : Aligned Bucket := by
  intro b
  have hactions := Action.aligned.sequence_length_mod b.actions
  show (16 + Sequence.length b.actions) % 8 = 0
  omega

end Bucket

/-! ## Queues -/

namespace QueueProperty

instance : Announcing QueueProperty where
  announced p := [(.queueProperty, p.length)]

theorem accounted : Accounted QueueProperty :=
  .headed (fun _ => rfl) (fun _ => rfl) length_eq_body

theorem written : WrittenByLength QueueProperty length :=
  accounted.writtenByLength (fun _ => rfl) fun _ => List.forall_mem_nil _

theorem aligned : Aligned QueueProperty := by
  intro p
  show p.length % 8 = 0
  cases p with
  | minRate | maxRate => simp [length]
  | experimenter number data =>
    have hdata : data.octets.length % 8 = 0 := data.aligned
    show (16 + data.octets.length) % 8 = 0
    omega

end QueueProperty

namespace PacketQueue

instance : Announcing PacketQueue where
  announced q := (.packetQueue, q.length) :: announced q.properties

theorem properties_le_length {q : PacketQueue} {l : Element × Nat}
    (hl : l ∈ announced q.properties) : l.2 ≤ q.length :=
  Nat.le_trans (QueueProperty.accounted.le_sequence_length hl) (Nat.le_add_left _ headerLength)

theorem accounted : Accounted PacketQueue where
  announces q := by
    have h := (((Encoding.announces_ofOctets q.preamble).append
      (Encoding.announces_lengthField .packetQueue q.length)).append
        (Encoding.announces_ofOctets (zeros 6))).append
          (QueueProperty.accounted.announces_sequence q.properties)
    simp only [preamble, List.length_append, length_bigEndian, length_zeros] at h
    exact h
  le_length q := List.forall_mem_cons.2 ⟨Nat.le_refl _, fun _ => properties_le_length⟩

theorem written : WrittenByLength PacketQueue length :=
  accounted.writtenByLength (fun _ => rfl) fun _ _ => properties_le_length

theorem aligned : Aligned PacketQueue := by
  intro q
  have hproperties := QueueProperty.aligned.sequence_length_mod q.properties
  show (16 + Sequence.length q.properties) % 8 = 0
  omega

end PacketQueue

/-! ## Ids -/

namespace KindId

variable {family : KindFamily}

instance : Announcing (KindId family) where
  announced id := [(family.element, id.length)]

theorem accounted : Accounted (KindId family) :=
  .headed (fun _ => rfl) (fun _ => rfl) length_eq_body

theorem written (family : KindFamily) : WrittenByLength (KindId family) length :=
  accounted.writtenByLength (fun _ => rfl) fun _ => List.forall_mem_nil _

end KindId

instance : Announcing OxmId where
  announced _ := []

theorem OxmId.accounted : Accounted OxmId where
  announces id := by
    have h := Encoding.announces_ofOctets id.octets
    rwa [id.length_octets] at h
  le_length _ := List.forall_mem_nil _

instance : Announcing TableId where
  announced _ := []

theorem TableId.accounted : Accounted TableId where
  announces id := Encoding.announces_ofOctets [id.number]
  le_length _ := List.forall_mem_nil _

instance (s : IdSort) : Announcing s.Id :=
  match s with
  | .instruction => inferInstanceAs (Announcing InstructionId)
  | .table => inferInstanceAs (Announcing TableId)
  | .action => inferInstanceAs (Announcing ActionId)
  | .oxm => inferInstanceAs (Announcing OxmId)

theorem IdSort.accounted (s : IdSort) : Accounted s.Id := by
  cases s with
  | instruction => exact KindId.accounted
  | table => exact TableId.accounted
  | action => exact KindId.accounted
  | oxm => exact OxmId.accounted

/-! ## Table properties -/

namespace TableProperty

/-- The lengths of the ids that a property lists. -/
def announcedIds : TableProperty → List (Element × Nat)
  | idList _ ids => announced ids
  | experimenter .. => []

instance : Announcing TableProperty where
  announced p := (.tableProperty, p.declaredLength) :: p.announcedIds

theorem ids_le_declaredLength {p : TableProperty} {l : Element × Nat} (hl : l ∈ p.announcedIds) :
    l.2 ≤ p.declaredLength := by
  cases p with
  | idList kind ids =>
    exact Nat.le_trans (kind.sort.accounted.le_sequence_length hl) (Nat.le_add_left _ _)
  | experimenter => cases hl

theorem announces_body (p : TableProperty) :
    p.body.Announces p.announcedIds p.bodyOctets.length := by
  cases p with
  | idList kind ids =>
    have h := kind.sort.accounted.announces_sequence ids
    rwa [← Sequence.length_flatMap fun id _ => kind.sort.length_octets id] at h
  | experimenter miss number expType data => exact Encoding.announces_ofOctets _

theorem accounted : Accounted TableProperty where
  announces p := by
    have h := ((Encoding.announces_header .tableProperty p.kind.code p.declaredLength).append
      p.announces_body).append (Encoding.announces_ofOctets (padding p.declaredLength))
    rw [List.append_nil, show 4 + p.bodyOctets.length = p.declaredLength from
      p.declaredLength_eq.symm, ← padded_eq] at h
    exact h
  le_length p := by
    refine List.forall_mem_cons.2 ⟨Nat.le_add_right _ _, fun l hl => ?_⟩
    exact Nat.le_trans (ids_le_declaredLength hl) (Nat.le_add_right _ _)

theorem written : WrittenByLength TableProperty declaredLength :=
  accounted.writtenByLength (fun _ => rfl) fun _ _ => ids_le_declaredLength

theorem aligned : Aligned TableProperty := fun p => padded_mod p.declaredLength

theorem declaredLength_experimenter (miss : Bool) (number expType : UInt32) (data : Octets) :
    (experimenter miss number expType data).declaredLength = 12 + data.length := rfl

/-- The padding after the longest property that can be written is not counted by its length. -/
theorem exists_written_past_length : ∃ p : TableProperty,
    p.declaredLength = 0xffff ∧ p.length = 0x10000
      ∧ ∀ w : Writer, (w.write (Record.encode p)).1 = .ok () := by
  have hwritten (p : TableProperty) (hdeclared : p.declaredLength = 0xffff) :
      p.length = 0x10000 ∧ ∀ w : Writer, (w.write (Record.encode p)).1 = .ok () := by
    refine ⟨?_, fun w => ?_⟩
    · rw [length, hdeclared]
      rfl
    · rw [written.outcome, hdeclared]
      exact if_pos (Nat.le_refl _)
  have hdeclared := declaredLength_experimenter false 0 0 (zeros 0xfff3)
  rw [length_zeros] at hdeclared
  exact ⟨_, hdeclared, hwritten _ hdeclared⟩

end TableProperty

/-! ## Matches -/

namespace Match

instance : Announcing Match where
  announced m := (.oxmMatch, m.declaredLength) :: announced m.fields

theorem announced_fields (m : Match) : announced m.fields = [] := Field.announced_list _

theorem accounted : Accounted Match where
  announces m := by
    have h := ((Encoding.announces_header .oxmMatch MatchType.oxm.toNat m.declaredLength).append
      (Field.accounted.announces_sequence m.fields.toList)).append
        (Encoding.announces_ofOctets (padding m.declaredLength))
    rw [List.append_nil, show 4 + Sequence.length m.fields.toList = m.declaredLength from rfl,
      ← padded_eq] at h
    exact h
  le_length m := by
    refine List.forall_mem_cons.2 ⟨Nat.le_add_right _ _, ?_⟩
    rw [announced_fields]
    exact List.forall_mem_nil _

theorem written : WrittenByLength Match declaredLength :=
  accounted.writtenByLength (fun m => congrArg (List.cons _) m.announced_fields) fun _ =>
    List.forall_mem_nil _

theorem aligned : Aligned Match := fun m => padded_mod m.declaredLength

/-- There are too few fields for a match to be too long. -/
theorem write_of_wellKeyed {m : Match} (h : m.fields.WellKeyed) (w : Writer) :
    (w.write (Record.encode m)).1 = .ok () := by
  rw [written.outcome]
  exact if_pos (declaredLength_le h)

theorem write_ofSteps (steps : List (SetStep Field)) (w : Writer) :
    (w.write (Record.encode (ofSteps steps))).1 = .ok () :=
  write_of_wellKeyed (KeyedSet.wellKeyed_run Field.kindsDecideKeys steps) w

theorem write_of_read {limits : Limits} {bs : Octets} {m : Match}
    (hread : Record.ofOctetsWithin limits bs = .ok m) (w : Writer) :
    (w.write (Record.encode m)).1 = .ok () := by
  obtain ⟨c, hrun, -⟩ := Record.ofOctetsWithin_eq_ok_iff.1 hread
  obtain ⟨fs, -, -, -, -, -, -, hfields⟩ := run_decode_ok hrun
  refine write_of_wellKeyed ?_ w
  rw [hfields]
  exact KeyedSet.wellKeyed_ofList fs

end Match

/-! ## Every family -/

/-- Every record, list and set is written as exactly its octets or overflows, the former if and only
    if all lengths in it fit, and for a record its own length tells. That length leaves out the
    padding of table properties and matches, so the longest property that can be written takes up
    more octets than sixteen bits can count. -/
theorem writing_is_exact :
    -- records that declare their length
    (WrittenByLength Action Action.length ∧ WrittenByLength Instruction Instruction.length
      ∧ WrittenByLength Bucket Bucket.length ∧ WrittenByLength PacketQueue PacketQueue.length
      ∧ WrittenByLength QueueProperty QueueProperty.length
      ∧ WrittenByLength TableProperty TableProperty.declaredLength
      ∧ WrittenByLength Match Match.declaredLength
      ∧ ∀ family, WrittenByLength (KindId family) KindId.length)
    -- fields and ids of all sorts, lists and sets
    ∧ (WrittenExactly Field ∧ (∀ s : IdSort, WrittenExactly s.Id ∧ WrittenExactly (List s.Id))
      ∧ WrittenExactly (List Field) ∧ WrittenExactly (List Action)
      ∧ WrittenExactly (List Instruction) ∧ WrittenExactly (List Bucket)
      ∧ WrittenExactly (List QueueProperty) ∧ WrittenExactly (List TableProperty)
      ∧ WrittenExactly (KeyedSet Field) ∧ WrittenExactly (KeyedSet Action)
      ∧ WrittenExactly (KeyedSet Instruction))
    -- what always fits
    ∧ (NeverOverflows Field ∧ NeverOverflows (List Field) ∧ NeverOverflows (KeyedSet Field)
      ∧ NeverOverflows Action ∧ NeverOverflows (List Action) ∧ NeverOverflows (KeyedSet Action)
      -- a match, whether its fields were put together or it was read
      ∧ (∀ (steps : List (SetStep Field)) (w : Writer),
        (w.write (Record.encode (Match.ofSteps steps))).1 = .ok ())
      ∧ ∀ (limits : Limits) (bs : Octets) (m : Match), Record.ofOctetsWithin limits bs = .ok m →
        ∀ w : Writer, (w.write (Record.encode m)).1 = .ok ())
    ∧ (Aligned Action ∧ Aligned Instruction ∧ Aligned Bucket ∧ Aligned PacketQueue
      ∧ Aligned QueueProperty ∧ Aligned TableProperty ∧ Aligned Match)
    ∧ ∃ p : TableProperty, p.declaredLength = 0xffff ∧ p.length = 0x10000
      ∧ ∀ w : Writer, (w.write (Record.encode p)).1 = .ok () := by
  refine ⟨⟨Action.written, Instruction.written, Bucket.written, PacketQueue.written,
      QueueProperty.written, TableProperty.written, Match.written, KindId.written⟩, ?_, ?_,
    ⟨Action.aligned, Instruction.aligned, Bucket.aligned, PacketQueue.aligned,
      QueueProperty.aligned, TableProperty.aligned, Match.aligned⟩,
    TableProperty.exists_written_past_length⟩
  · exact ⟨Field.accounted.written, fun s => ⟨s.accounted.written, s.accounted.list.written⟩,
      Field.accounted.list.written, Action.accounted.list.written,
      Instruction.accounted.list.written, Bucket.accounted.list.written,
      QueueProperty.accounted.list.written, TableProperty.accounted.list.written,
      Field.accounted.set.written, Action.accounted.set.written,
      Instruction.accounted.set.written⟩
  · exact ⟨Field.accounted.neverOverflows fun _ => List.forall_mem_nil _,
      Field.accounted.list.neverOverflows fun _ _ => Field.announced_le,
      Field.accounted.set.neverOverflows fun _ _ => Field.announced_le,
      Action.accounted.neverOverflows Action.length_fits,
      Action.accounted.list.neverOverflows fun _ _ => Action.announced_le,
      Action.accounted.set.neverOverflows fun _ _ => Action.announced_le, Match.write_ofSteps,
      fun _ _ _ hread => Match.write_of_read hread⟩

end OpenFlow
