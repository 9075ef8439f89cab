import OpenFlow.Proofs.Formats
import OpenFlow.Proofs.Recoding.Format
import OpenFlow.Proofs.Recoding.Recoded
import OpenFlow.Proofs.RoundTrip.Queue
import OpenFlow.Proofs.RoundTrip.TableProperty

set_option autoImplicit false

/-! # Properties are written again

A queue property has open places around what it holds. A table property is open only in the padding
after it, which its length does not cover; in the ids that it lists everything counts. -/

namespace OpenFlow

open Decoder Template

/-! ## Queue properties -/

namespace QueueProperty

/-- The octets after the header, with the filler left open. -/
def bodyTemplate : QueueProperty → Template
  | minRate rate | maxRate rate => blanks 4 ++ (exact (bigEndian 2 rate.toNat) ++ blanks 6)
  | experimenter number data =>
    blanks 4 ++ (exact (bigEndian 4 number.toNat) ++ (blanks 4 ++ exact data.octets))

theorem fill_bodyTemplate (p : QueueProperty) : p.bodyTemplate.fill = p.body := by
  cases p <;> simp [bodyTemplate, body]

theorem length_eq_bodyTemplate (p : QueueProperty) :
    p.length = headerLength + p.bodyTemplate.length := by
  rw [length_eq_body, ← fill_bodyTemplate, length_fill]

/-- The octets of a property, with the filler left open. -/
def template (p : QueueProperty) : Template :=
  Framing.paddingIncluded.template p.kind.code p.length p.bodyTemplate

theorem fill_template (p : QueueProperty) : p.template.fill = p.octets := by
  rw [template, Framing.template_included, fill_append, fill_exact, fill_bodyTemplate]
  rfl

/-- A property of a kind code, with the octets after the header. -/
def BodyOf (code : Nat) (p : QueueProperty) (t : Template) : Prop :=
  p.kind.code = code ∧ t = p.bodyTemplate

theorem BodyOf.header {code : Nat} {p : QueueProperty} {t : Template} (h : BodyOf code p t) :
    p.kind.code = code ∧ p.length = headerLength + t.length := by
  obtain ⟨hcode, rfl⟩ := h
  exact ⟨hcode, p.length_eq_bodyTemplate⟩

theorem follows_holdingRate {make : UInt16 → QueueProperty} {code : Nat}
    (hmake : ∀ rate, BodyOf code (make rate)
      (blanks 4 ++ (exact (bigEndian 2 rate.toNat) ++ blanks 6))) :
    (holdingRate make).Follows (BodyOf code) := by
  refine Layout.follows_fixed (Follows.after_skip 4 (follows_u16.map ?_))
  rintro rate _ rfl n hn
  obtain rfl : n = 6 := by
    simp [headerLength] at hn
    omega
  rw [List.append_assoc]
  exact hmake rate

theorem follows_layout (k : QueuePropertyKind) : (layout k).Follows (BodyOf k.code) := by
  cases k with
  | minRate => exact follows_holdingRate fun rate => ⟨rfl, rfl⟩
  | maxRate => exact follows_holdingRate fun rate => ⟨rfl, rfl⟩
  | experimenter =>
    refine Layout.follows_atLeast fun h => Follows.after_skip 4 (follows_u32.bind ?_)
    rintro number _ rfl
    refine Follows.after_skip 4 (follows_remainder.accept ?_)
    rintro data _ rfl
    -- data that does not fill up its octets is refused
    by_cases haligned : data.length % alignment = 0
    · exact Or.inl ⟨_, dif_pos haligned, rfl, rfl⟩
    · exact Or.inr ⟨_, dif_neg haligned⟩

theorem follows (limits : Limits) :
    (Record.decode limits : Decoder QueueProperty).Follows anywhere (Drawn template) := by
  show decode.Follows anywhere (Drawn template)
  rw [decode_eq]
  refine (format.follows (S := BodyOf) ?_ fun _ _ _ => BodyOf.header).weaken ?_
  · intro h layout hlayout
    obtain ⟨k, hkind, rfl⟩ := Option.map_eq_some_iff.1 hlayout
    rw [← QueuePropertyKind.code_of_ofCode? hkind]
    exact follows_layout k
  · rintro p _ ⟨_, ⟨-, rfl⟩, rfl, hlength⟩
    refine ⟨rfl, ?_⟩
    rw [fill_template]
    exact writes_encode hlength

theorem consumes (limits : Limits) : (Record.decode limits : Decoder QueueProperty).Consumes :=
  (follows limits).consumes fun _ _ ht => ht.1 ▸ Framing.template_ne_nil _ _ _ _

theorem recodes (limits : Limits) : Recodes limits (List QueueProperty) :=
  recodes_of_follows <|
    Sequence.follows_decode (follows limits) fun _ => Framing.template_ne_nil _ _ _ _

end QueueProperty

/-! ## Ids -/

namespace KindId

variable {family : KindFamily}

/-- The format of ids: the code of experimenters asks for another form than the others do. -/
def format (family : KindFamily) : RecordFormat (KindId family) where
  element := family.element
  framing := .paddingIncluded
  layout? code :=
    if UInt16.ofNat code = experimenterCode then
      some (.atLeast (headerLength + 4) fun _ => decodeExperimenter)
    else some (.fixed headerLength (pure (.standard (UInt16.ofNat code))))

theorem decode_eq : decode = (format family).decode := by
  refine RecordFormat.eq_decode (F := format family) ?_
  intro h body tail c ho
  have hkind : UInt16.ofNat h.code = h.kind := UInt16.ofNat_toNat
  by_cases hexperimenter : h.kind = experimenterCode
  · rw [if_pos hexperimenter]
    refine RecordFormat.run_element_eq (F := format family) rfl ?_ ho
    exact if_pos (hkind.trans hexperimenter)
  · rw [if_neg hexperimenter]
    refine RecordFormat.run_element_eq (F := format family) rfl ?_ ho
    refine (if_neg fun h' => hexperimenter (hkind.symm.trans h')).trans ?_
    rw [hkind]

/-- An id of a kind code, with the octets after the header. -/
def BodyOf (code : Nat) (id : KindId family) (t : Template) : Prop :=
  id.code.toNat = code ∧ t = exact id.body

theorem BodyOf.header {code : Nat} {id : KindId family} {t : Template} (h : BodyOf code id t) :
    id.code.toNat = code ∧ id.length = headerLength + t.length := by
  obtain ⟨hcode, rfl⟩ := h
  rw [length_exact]
  exact ⟨hcode, id.length_eq_body⟩

theorem follows_layout {h : Header} {layout : Layout (KindId family)}
    (hlayout : (format family).layout? h.code = some layout) :
    layout.Follows (BodyOf h.code) := by
  have hkind : UInt16.ofNat h.code = h.kind := UInt16.ofNat_toNat
  by_cases hexperimenter : UInt16.ofNat h.code = experimenterCode
  · obtain rfl := Option.some.inj ((if_pos hexperimenter).symm.trans hlayout)
    refine Layout.follows_atLeast fun _ => follows_u32.bind ?_
    rintro number _ rfl
    refine follows_remainder.map ?_
    rintro data _ rfl
    exact ⟨congrArg UInt16.toNat (hexperimenter.symm.trans hkind), List.map_append.symm⟩
  · obtain rfl := Option.some.inj ((if_neg hexperimenter).symm.trans hlayout)
    refine Layout.follows_bare 0 rfl ⟨?_, rfl⟩
    rw [hkind]
    rfl

theorem follows (limits : Limits) :
    (Record.decode limits : Decoder (KindId family)).Follows anywhere
      (Drawn fun id => exact id.octets) := by
  show decode.Follows anywhere _
  rw [decode_eq]
  refine ((format family).follows (S := BodyOf) (fun _ _ => follows_layout)
    fun _ _ _ => BodyOf.header).weaken ?_
  rintro id _ ⟨_, ⟨-, rfl⟩, rfl, hlength⟩
  refine ⟨?_, ?_⟩
  · show Framing.paddingIncluded.template _ _ _ = _
    rw [Framing.template_included]
    exact List.map_append.symm
  · rw [fill_exact]
    exact writes_encode hlength

end KindId

namespace OxmId

/-- An id that is read is there with all its octets, and its header tells the form that it has. -/
theorem run_decode_ok {c c' : Cursor} {id : OxmId} (hrun : decode.run c = (.ok id, c')) :
    c.rest = id.octets ++ c'.rest ∧ id.SoundHeader := by
  unfold decode at hrun
  obtain ⟨_, c₁, hneed, hread⟩ := exists_of_run_bind_ok hrun
  obtain ⟨rfl, hfour⟩ := run_need_ok hneed
  obtain ⟨pos, rest⟩ := c₁
  obtain ⟨header, after, rfl⟩ := OxmHeader.exists_octets rest hfour
  rw [run_bind_ok OxmHeader.run_ahead_read] at hread
  have hskip : (skip 4).run ⟨pos, header.octets ++ after⟩ = (.ok (), ⟨pos + 4, after⟩) := by
    have h := reads_skip header.length_octets after pos
    rwa [header.length_octets] at h
  by_cases hclass : header.fieldClass = OxmClass.experimenter.toNat
  · rw [if_pos hclass] at hread
    obtain ⟨_, c₂, hneed', hnumber⟩ := exists_of_run_bind_ok hread
    obtain ⟨rfl, -⟩ := run_need_ok hneed'
    rw [run_bind_ok hskip] at hnumber
    obtain ⟨number, hnumber', rfl⟩ := run_bind_pure_iff.1 hnumber
    obtain ⟨_, bs, rfl, hbs, hrest, -⟩ := follows_u32 _ _ _ hnumber'
    refine ⟨?_, hclass⟩
    rw [octets, ← fits_exact_iff.1 hbs, List.append_assoc, ← hrest]
  · rw [if_neg hclass, run_bind_ok hskip] at hread
    obtain ⟨hid, rfl⟩ := Prod.mk.inj hread
    obtain rfl := Except.ok.inj hid
    exact ⟨rfl, hclass⟩

theorem follows (limits : Limits) :
    (Record.decode limits : Decoder OxmId).Follows anywhere (Drawn fun id => exact id.octets) := by
  refine (follows_of_reads (fun _ _ _ => run_decode_ok) fun id h => reads_decode h).weaken ?_
  rintro id t ⟨ht, -⟩
  refine ⟨ht, ?_⟩
  rw [fill_exact]
  exact Encoding.writes_ofOctets id.octets

end OxmId

theorem TableId.follows (limits : Limits) :
    (Record.decode limits : Decoder TableId).Follows anywhere (Drawn fun id => exact id.octets) := by
  refine follows_u8.map ?_
  rintro number _ rfl
  refine ⟨congrArg exact (octets_eq ⟨number⟩).symm, ?_⟩
  rw [fill_exact]
  exact Encoding.writes_ofOctets [number]

/-- In ids of every sort everything counts. -/
theorem IdSort.follows (limits : Limits) (s : IdSort) :
    (Record.decode limits : Decoder s.Id).Follows anywhere
      (Drawn fun id => exact (s.octets id)) := by
  cases s with
  | instruction => exact KindId.follows limits
  | table => exact TableId.follows limits
  | action => exact KindId.follows limits
  | oxm => exact OxmId.follows limits

theorem IdSort.consumes (limits : Limits) (s : IdSort) :
    (Record.decode limits : Decoder s.Id).Consumes := by
  refine (s.follows limits).consumes fun id _ ht hnil => s.octets_ne_nil id ?_
  exact List.map_eq_nil_iff.1 (ht.1.symm.trans hnil)

/-! ## Table properties -/

namespace TableProperty

/-- The octets of a property, with the padding left open. -/
def template (p : TableProperty) : Template :=
  Framing.paddingExcluded.template p.kind.code p.declaredLength (exact p.bodyOctets)

theorem fill_template (p : TableProperty) : p.template.fill = p.octets := by
  rw [template, Framing.template, fill_append, fill_append, fill_exact, fill_exact, fill_blanks,
    ← List.append_assoc]
  rfl

/-- A property of a kind code, with the octets after the header, as which its body is written. -/
def BodyOf (code : Nat) (p : TableProperty) (t : Template) : Prop :=
  p.kind.code = code ∧ t = exact p.bodyOctets ∧ p.body.Writes p.bodyOctets

theorem BodyOf.header {code : Nat} {p : TableProperty} {t : Template} (h : BodyOf code p t) :
    p.kind.code = code ∧ p.declaredLength = headerLength + t.length := by
  obtain ⟨hcode, rfl, -⟩ := h
  rw [length_exact]
  exact ⟨hcode, p.declaredLength_eq⟩

theorem follows_layout (limits : Limits) (k : TablePropertyKind) :
    (layout limits k).Follows (BodyOf k.code) := by
  cases k with
  | ids kind =>
    have hids := Sequence.follows_decode (IdSort.follows limits kind.sort) fun id h =>
      kind.sort.octets_ne_nil id (List.map_eq_nil_iff.1 h)
    refine Layout.follows_atLeast fun _ => hids.map ?_
    rintro ids _ ⟨rfl, hwrites⟩
    refine ⟨rfl, (exact_flatMap _ _).symm, ?_⟩
    show (Sequence.encode ids).Writes (ids.flatMap kind.sort.octets)
    rw [← fill_flatMap (fun _ => fill_exact _) ids]
    exact hwrites
  | experimenter miss =>
    refine Layout.follows_atLeast fun _ => follows_u32.bind ?_
    rintro number _ rfl
    refine follows_u32.bind ?_
    rintro expType _ rfl
    refine follows_remainder.map ?_
    rintro data _ rfl
    refine ⟨rfl, ?_, Encoding.writes_ofOctets _⟩
    simp [bodyOctets, exact]

theorem follows (limits : Limits) :
    (Record.decode limits : Decoder TableProperty).Follows anywhere (Drawn template) := by
  show (decode limits).Follows anywhere (Drawn template)
  rw [decode_eq]
  refine ((format limits).follows (S := BodyOf) ?_ fun _ _ _ => BodyOf.header).weaken ?_
  · intro h layout hlayout
    obtain ⟨k, hkind, rfl⟩ := Option.map_eq_some_iff.1 hlayout
    rw [← TablePropertyKind.code_of_ofCode? hkind]
    exact follows_layout limits k
  · rintro p _ ⟨_, ⟨-, rfl, hbody⟩, rfl, hlength⟩
    refine ⟨rfl, ?_⟩
    rw [fill_template]
    exact ((Encoding.writes_header .tableProperty p.kind.code hlength).append hbody).append
      (Encoding.writes_ofOctets (padding p.declaredLength))

theorem consumes (limits : Limits) : (Record.decode limits : Decoder TableProperty).Consumes :=
  (follows limits).consumes fun _ _ ht => ht.1 ▸ Framing.template_ne_nil _ _ _ _

theorem recodes (limits : Limits) : Recodes limits (List TableProperty) :=
  recodes_of_follows <|
    Sequence.follows_decode (follows limits) fun _ => Framing.template_ne_nil _ _ _ _

end TableProperty

end OpenFlow
