import OpenFlow.Proofs.Dispatch.Announced
import OpenFlow.Proofs.Skipping.Instruction
import OpenFlow.Proofs.Skipping.Property

set_option autoImplicit false

/-! # The decoder of one kind and the decoder of all kinds

Each family of records can be read in two ways: by the decoder of all kinds, which looks up the kind
of the next record, or by a decoder that was chosen for one kind beforehand. The main statement,
`typed_decoders_agree`, says what the second comes to, wherever it is started: it does what the
first does if its kind is announced, it stays where it is and names both codes if another is, and
both stay and fail for the same reason if the header is malformed.

Elements are treated once for all families. `RecordFormat.ReadsOnly` says that a decoder reads the
records of a format that have certain codes; there are three ways of building such a decoder, and
one argument why it agrees with the decoder of the format. -/

namespace OpenFlow

variable {α : Type}

/-! ## Agreement -/

namespace Kinded

section

variable [Kinded α]

/-- The record as one of a kind, if it has the form of that kind. -/
def downcast? (k : Kind α) (a : α) : Option α := if alike (kind a) k then some a else none

/-- Records of the form of a kind are announced under that code. -/
def Names (k : Kind α) (n : Nat) : Prop := ∃ l : Kind α, alike l k = true ∧ code l = n

theorem isNamed_iff {s : String} {a : α} :
    isNamed s a = true ↔ ∃ k, ofName? α s = some k ∧ downcast? k a = some a := by
  simp [isNamed, downcast?, Option.any_eq_true]

end

/-- The decoder of one kind, and the decoder of all kinds of its family, where the octets announce a
    record or something is wrong with its header. -/
def AgreesAt [Record α] [Kinded α] (announced : Octets → Except DecodeError Nat) (expected : Nat)
    (limits : Limits) (k : Kind α) (c : Cursor) : Prop :=
  let typed : Decoder α := decodeAs limits k
  let dispatching : Decoder α := Record.decode limits
  match announced c.rest with
  | .ok n =>
    (Names k n → typed.run c = dispatching.run c
      ∧ ∀ a c', dispatching.run c = (.ok a, c') → downcast? k a = some a)
    ∧ (¬ Names k n → typed.run c = (.error (.kindMismatch (Record.element α) expected n), c))
  | .error failure =>
    typed.run c = (.error failure, c) ∧ dispatching.run c = (.error failure, c)

end Kinded

/-! ## Decoders of some kinds of a format -/

namespace RecordFormat

/-- `d` reads the records of a format whose codes satisfy `p`. -/
structure ReadsOnly (F : RecordFormat α) (d : Decoder α) (p : Nat → Prop) (expected : Nat) :
    Prop where
  own : ∀ {h : Header} {body tail : Octets} {c : Cursor}, h.Opens body tail c.rest → p h.code →
    d.run c = F.outcome h body tail c
  other : ∀ {h : Header} {body tail : Octets} {c : Cursor}, h.Opens body tail c.rest → ¬ p h.code →
    d.run c = (.error (.kindMismatch F.element expected h.code), c)
  missing : ∀ {c : Cursor} {e : DecodeError}, (Header.expect F.element).run c = (.error e, c) →
    d.run c = (.error e, c)

variable {F : RecordFormat α} {layout : Layout α} {n : Nat}

/-- An element of one code, where lengths cover the padding. -/
theorem readsOnly_element (hF : F.framing = .paddingIncluded) (hlayout : F.layout? n = some layout)
    {p : Nat → Prop} (hp : ∀ m, p m ↔ m = n) :
    F.ReadsOnly (Decoder.element F.element n layout) p n where
  own := by
    intro h body tail c ho hcode
    obtain rfl := (hp _).1 hcode
    exact run_element_eq hF hlayout ho
  other := by
    intro h body tail c ho hcode
    rw [Decoder.run_element F.element n layout ho, if_pos fun heq => hcode ((hp _).2 heq)]
  missing := Decoder.run_element_of_error

/-- An element of one code, where lengths do not cover the padding. -/
theorem readsOnly_elementPadded (hF : F.framing = .paddingExcluded)
    (hlayout : F.layout? n = some layout) {p : Nat → Prop} (hp : ∀ m, p m ↔ m = n) :
    F.ReadsOnly (Decoder.elementPadded F.element n layout) p n where
  own := by
    intro h body tail c ho hcode
    obtain rfl := (hp _).1 hcode
    exact run_elementPadded_eq hF hlayout ho
  other := by
    intro h body tail c ho hcode
    have helement := Decoder.run_element F.element n
      ⟨layout.fits, fun h => do return (h.size, ← layout.body h)⟩ ho
    rw [if_pos fun heq => hcode ((hp _).2 heq)] at helement
    exact Decoder.run_bind_error helement
  missing := fun hrun => Decoder.run_bind_error (Decoder.run_element_of_error hrun)

/-- A record that is read has the code that is announced, so it has the form of a kind of that
    code. -/
theorem downcast?_of_run [Kinded α] {G : RecordFamily}
    (hF : F.Describes G fun a => Kinded.code (Kinded.kind a))
    (hcode : ∀ {k l : Kinded.Kind α}, Kinded.code k = Kinded.code l → k = l) {k : Kinded.Kind α}
    {h : Header} {body tail : Octets} {c c' : Cursor} {a : α} (hnames : Kinded.Names k h.code)
    (hrun : F.outcome h body tail c = (.ok a, c')) : Kinded.downcast? k a = some a := by
  obtain ⟨layout, hlayout, hbody, -⟩ := outcome_ok_cases hrun
  obtain ⟨l, hlike, hl⟩ := hnames
  have hkind : Kinded.kind a = l := hcode ((hF.value hlayout hbody).1.trans hl.symm)
  rw [Kinded.downcast?, hkind, if_pos hlike]

/-- A decoder of some kinds agrees with the decoder of the format. -/
theorem ReadsOnly.agreesAt [Record α] [Kinded α] {G : RecordFamily} {limits : Limits}
    {k : Kinded.Kind α} {expected : Nat} (hdecode : (Record.decode limits : Decoder α) = F.decode)
    (helement : F.element = Record.element α)
    (hF : F.Describes G fun a => Kinded.code (Kinded.kind a))
    (hcode : ∀ {k l : Kinded.Kind α}, Kinded.code k = Kinded.code l → k = l)
    (hd : F.ReadsOnly (Kinded.decodeAs limits k) (Kinded.Names k) expected) (c : Cursor) :
    Kinded.AgreesAt (Header.announced (Record.element α)) expected limits k c := by
  unfold Kinded.AgreesAt
  rw [hdecode, ← helement]
  rcases Header.announced_cases F.element c with
    ⟨h, body, tail, ho, hannounced⟩ | ⟨failure, hannounced, hrun⟩
  · rw [hannounced]
    refine ⟨fun hnames => ⟨?_, fun a c' hrun => ?_⟩, fun hnames => hd.other ho hnames⟩
    · rw [hd.own ho hnames, run_decode ho]
    · rw [run_decode ho] at hrun
      exact downcast?_of_run hF hcode hnames hrun
  · rw [hannounced]
    exact ⟨hd.missing hrun, run_decode_of_error hrun⟩

end RecordFormat

/-! ## The families -/

/-- Where no two kinds share a form, a kind is announced under its own code only. -/
theorem Kinded.names_iff [Kinded α] (halike : ∀ k l : Kind α, alike k l = true ↔ k = l)
    (k : Kind α) (n : Nat) : Names k n ↔ n = code k := by
  constructor
  · rintro ⟨l, hl, rfl⟩
    rw [(halike l k).1 hl]
  · rintro rfl
    exact ⟨k, (halike k k).2 rfl, rfl⟩

/-! ### Actions -/

namespace Action

/-- What an action of an experimenter holds cannot be told, every other kind has its decoder. -/
theorem exists_layout {k : ActionKind} (hk : k ≠ .experimenter) :
    ∃ layout, layout? k = some layout := by
  cases k <;> first | exact ⟨_, rfl⟩ | exact absurd rfl hk

theorem agreesAt (limits : Limits) {k : ActionKind} (hk : k ≠ .experimenter) (c : Cursor) :
    Kinded.AgreesAt (α := Action) (Header.announced .action) k.code limits k c := by
  obtain ⟨layout, hlayout⟩ := exists_layout hk
  have hformat : format.layout? k.code = some layout := by
    simp [format, ActionKind.ofCode?_code, hlayout]
  have hnames := Kinded.names_iff (α := Action) (fun _ _ => beq_iff_eq (α := ActionKind)) k
  refine RecordFormat.ReadsOnly.agreesAt (F := format) decode_eq rfl describes_family
    ActionKind.code_injective ?_ c
  show format.ReadsOnly (decodeAs k) _ _
  rw [decodeAs, hlayout]
  exact RecordFormat.readsOnly_element rfl hformat hnames

end Action

/-! ### Instructions -/

namespace Instruction

/-- What an instruction of an experimenter holds cannot be told, every other kind has its
    decoder. -/
theorem exists_layout (limits : Limits) {k : InstructionKind} (hk : k ≠ .experimenter) :
    ∃ layout, layout? limits k = some layout := by
  cases k <;> first | exact ⟨_, rfl⟩ | exact absurd rfl hk

theorem agreesAt (limits : Limits) {k : InstructionKind} (hk : k ≠ .experimenter) (c : Cursor) :
    Kinded.AgreesAt (α := Instruction) (Header.announced .instruction) k.code limits k c := by
  obtain ⟨layout, hlayout⟩ := exists_layout limits hk
  have hformat : (format limits).layout? k.code = some layout := by
    simp [format, InstructionKind.ofCode?_code, hlayout]
  have hnames :=
    Kinded.names_iff (α := Instruction) (fun _ _ => beq_iff_eq (α := InstructionKind)) k
  refine RecordFormat.ReadsOnly.agreesAt (F := format limits) (decode_eq limits) rfl
    (describes_family limits) InstructionKind.code_injective ?_ c
  show (format limits).ReadsOnly (decodeAs limits k) _ _
  rw [decodeAs, hlayout]
  exact RecordFormat.readsOnly_element rfl hformat hnames

end Instruction

/-! ### Queue properties -/

theorem QueueProperty.agreesAt (limits : Limits) (k : QueuePropertyKind) (c : Cursor) :
    Kinded.AgreesAt (α := QueueProperty) (Header.announced .queueProperty) k.code limits k c := by
  have hformat : format.layout? k.code = some (layout k) := by
    simp [format, QueuePropertyKind.ofCode?_code]
  have hnames :=
    Kinded.names_iff (α := QueueProperty) (fun _ _ => beq_iff_eq (α := QueuePropertyKind)) k
  exact RecordFormat.ReadsOnly.agreesAt (F := format) decode_eq rfl describes_family
    QueuePropertyKind.code_injective (RecordFormat.readsOnly_element rfl hformat hnames) c

/-! ### Table properties -/

/-- The code that the decoder of a kind asks for: experimenters' properties of both flavours share
    one decoder, which asks for that of regular flow entries. -/
def TablePropertyKind.expectedCode : TablePropertyKind → Nat
  | ids kind => kind.code
  | experimenter _ => code (.experimenter false)

namespace TableProperty

theorem names_ids_iff (kind : IdListKind) (n : Nat) :
    Kinded.Names (α := TableProperty) (TablePropertyKind.ids kind) n ↔ n = kind.code := by
  constructor
  · rintro ⟨l | miss, hlike, rfl⟩
    · obtain rfl : l = kind := beq_iff_eq.1 hlike
      rfl
    · cases hlike
  · rintro rfl
    exact ⟨.ids kind, beq_self_eq_true kind, rfl⟩

theorem names_experimenter_iff (miss : Bool) (n : Nat) :
    Kinded.Names (α := TableProperty) (TablePropertyKind.experimenter miss) n ↔
      ∃ miss', TablePropertyKind.ofCode? n = some (.experimenter miss') := by
  constructor
  · rintro ⟨l | miss', hlike, rfl⟩
    · cases hlike
    · exact ⟨miss', TablePropertyKind.ofCode?_code _⟩
  · rintro ⟨miss', hkind⟩
    exact ⟨.experimenter miss', rfl, TablePropertyKind.code_of_ofCode? hkind⟩

theorem readsOnly_ids (limits : Limits) (kind : IdListKind) :
    (format limits).ReadsOnly (decodeAs limits (.ids kind))
      (Kinded.Names (α := TableProperty) (TablePropertyKind.ids kind)) kind.code := by
  have hformat : (format limits).layout? kind.code = some (listingIds limits kind) := by
    have hkind : TablePropertyKind.ofCode? kind.code = some (.ids kind) :=
      TablePropertyKind.ofCode?_code (.ids kind)
    simp [format, hkind, layout]
  exact RecordFormat.readsOnly_elementPadded rfl hformat (names_ids_iff kind)

/-- The decoder of experimenters' properties takes its flavour from the header. -/
theorem readsOnly_experimenter (limits : Limits) (miss : Bool) :
    (format limits).ReadsOnly decodeExperimenter
      (Kinded.Names (α := TableProperty) (TablePropertyKind.experimenter miss))
      (TablePropertyKind.expectedCode (.experimenter miss)) where
  own := by
    intro h body tail c ho hnames
    obtain ⟨miss', hkind⟩ := (names_experimenter_iff miss _).1 hnames
    have hformat : (format limits).layout? h.code = some (experimenterLayout miss') := by
      simp [format, hkind, layout]
    unfold decodeExperimenter
    rw [Decoder.run_bind_ok (Header.run_expect ho)]
    simp only [hkind]
    exact RecordFormat.run_elementPadded_eq (F := format limits) rfl hformat ho
  other := by
    intro h body tail c ho hnames
    unfold decodeExperimenter
    rw [Decoder.run_bind_ok (Header.run_expect ho)]
    split
    · next miss' hkind => exact absurd ((names_experimenter_iff miss _).2 ⟨miss', hkind⟩) hnames
    · rfl
  missing := Decoder.run_bind_error

theorem readsOnly (limits : Limits) (k : TablePropertyKind) :
    (format limits).ReadsOnly (decodeAs limits k) (Kinded.Names (α := TableProperty) k)
      k.expectedCode := by
  cases k with
  | ids kind => exact readsOnly_ids limits kind
  | experimenter miss => exact readsOnly_experimenter limits miss

theorem agreesAt (limits : Limits) (k : TablePropertyKind) (c : Cursor) :
    Kinded.AgreesAt (α := TableProperty) (Header.announced .tableProperty) k.expectedCode
      limits k c :=
  RecordFormat.ReadsOnly.agreesAt (F := format limits) (decode_eq limits) rfl
    (describes_family limits) TablePropertyKind.code_injective (readsOnly limits k) c

end TableProperty

/-! ### Match fields -/

/-- The type in a header tells the kind, whatever else the header says. -/
theorem OxmKind.ofHeader?_of_oxmType {h : OxmHeader} {k : OxmKind} (ht : h.oxmType = k.oxmType) :
    ofHeader? h = some k := by
  have hnumber : k.number < 128 := by cases k <;> decide
  have htype : h.raw.toNat / 512 = OxmClass.basic.toNat * 128 + k.number := ht
  have hclass : h.fieldClass = OxmClass.basic.toNat := by
    rw [OxmHeader.fieldClass]
    omega
  have hfield : h.number = k.number := by
    rw [OxmHeader.number]
    omega
  rw [ofHeader?, if_pos hclass, hfield, ofNumber?_number]

namespace Field

theorem recognizes_readPayload (k : OxmKind) (hasMask : Bool) :
    (readPayload k hasMask).Recognizes (·.kind = k) := by
  have hvalue : (Value.read k.shape).Recognizes fun _ => True :=
    (Decoder.recognizes_word _).map fun _ _ => trivial
  refine hvalue.bind fun value _ => ?_
  exact Decoder.recognizes_ite (fun _ => hvalue.map fun _ _ => rfl)
    fun _ => Decoder.recognizes_pure rfl

/-- A field that was read as one of a kind is of that kind. -/
theorem kind_of_run_decodeAs {k : OxmKind} {h : OxmHeader} {payload tail : Octets} {c c' : Cursor}
    {f : Field} (ho : h.Opens payload tail c.rest) (hrun : (decodeAs k).run c = (.ok f, c')) :
    f.kind = k := by
  rw [run_decodeAs k ho] at hrun
  split at hrun
  · cases (Prod.mk.inj hrun).1
  split at hrun
  · cases (Prod.mk.inj hrun).1
  · exact (recognizes_readPayload k h.hasMask).value hrun

theorem agreesAt (limits : Limits) (k : OxmKind) (c : Cursor) :
    Kinded.AgreesAt (α := Field) OxmHeader.announced k.oxmType limits k c := by
  have hnames := Kinded.names_iff (α := Field) (fun _ _ => beq_iff_eq (α := OxmKind)) k
  unfold Kinded.AgreesAt
  rcases OxmHeader.announced_cases c with
    ⟨h, payload, tail, ho, hannounced⟩ | ⟨failure, hannounced, hrun⟩
  · rw [hannounced]
    refine ⟨fun hk => ?_, fun hk => ?_⟩
    · have htype : h.oxmType = k.oxmType := (hnames _).1 hk
      have hdispatch : decode.run c = (decodeAs k).run c := by
        rw [decode, Decoder.run_bind_ok (OxmHeader.run_expect ho),
          OxmKind.ofHeader?_of_oxmType htype]
      refine ⟨hdispatch.symm, fun f c' hrun => ?_⟩
      have hkind : f.kind = k := kind_of_run_decodeAs ho (hdispatch.symm.trans hrun)
      exact if_pos (beq_iff_eq.2 hkind)
    · show (decodeAs k).run c = _
      have htype : h.oxmType ≠ k.oxmType := fun htype => hk ((hnames _).2 htype)
      rw [run_decodeAs k ho, if_pos htype]
      rfl
  · rw [hannounced]
    exact ⟨Decoder.run_bind_error hrun, Decoder.run_bind_error hrun⟩

end Field

/-! ## All families -/

/-- Wherever it is started, the decoder of one kind agrees with the decoder of all kinds of its
    family. Experimenters' actions and instructions have no decoder of their own. -/
theorem typed_decoders_agree (limits : Limits) (c : Cursor) :
    (∀ k : ActionKind, k ≠ .experimenter →
        Kinded.AgreesAt (α := Action) (Header.announced .action) k.code limits k c)
      ∧ (∀ k : InstructionKind, k ≠ .experimenter →
        Kinded.AgreesAt (α := Instruction) (Header.announced .instruction) k.code limits k c)
      ∧ (∀ k : OxmKind,
        Kinded.AgreesAt (α := Field) OxmHeader.announced k.oxmType limits k c)
      ∧ (∀ k : TablePropertyKind,
        Kinded.AgreesAt (α := TableProperty) (Header.announced .tableProperty) k.expectedCode
          limits k c)
      ∧ ∀ k : QueuePropertyKind,
        Kinded.AgreesAt (α := QueueProperty) (Header.announced .queueProperty) k.code limits k c :=
  ⟨fun _ hk => Action.agreesAt limits hk c, fun _ hk => Instruction.agreesAt limits hk c,
    fun k => Field.agreesAt limits k c, fun k => TableProperty.agreesAt limits k c,
    fun k => QueueProperty.agreesAt limits k c⟩

end OpenFlow
