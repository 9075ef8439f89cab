import OpenFlow.Proofs.Dispatch.Typed
import OpenFlow.Proofs.Validation.Sequence

set_option autoImplicit false

/-! # Ids that do not come back

An id is written in the form that it has, and read in the form that its header tells. The two can
differ, and then the id does not come back: what is read is no id at all, or another one, and in a
list the ids after it are cut in the wrong places. Validation refuses such ids of actions and of
instructions. It does not look at ids of match fields, so of these some are let pass that do not
come back: the main statement, `ids_come_back_iff`, says which. -/

namespace OpenFlow

variable {α : Type}

/-- The record can be written, and reading what was written gives it back exactly if `p` holds. -/
def ComesBackIff [Record α] (limits : Limits) (a : α) (p : Prop) : Prop :=
  ∃ bs, Record.octets a = .ok bs ∧ (Record.ofOctetsWithin limits bs = .ok a ↔ p)

/-- Everything that is read satisfies `p`, so a record that does not is not what is read. -/
theorem comesBackIff_of_carries [Record α] {limits : Limits} {a : α} {bs : Octets} {p : α → Prop}
    (hwrites : (Record.encode a).Writes bs)
    (hread : ∀ {b : α} {c c' : Cursor}, (Record.decode limits).run c = (.ok b, c') → p b)
    (hcarries : p a → Carries limits bs a) : ComesBackIff limits a (p a) := by
  refine ⟨bs, hwrites.toExcept_eq, fun hback => ?_, fun ha => ?_⟩
  · obtain ⟨c, hrun, -⟩ := Record.ofOctetsWithin_eq_ok_iff.1 hback
    exact hread hrun
  · exact (hcarries ha).alone.ofOctetsWithin_eq

/-- A record of which the condition does not hold does not come back. -/
theorem ComesBackIff.of_not [Record α] {limits : Limits} {a : α} {p : Prop}
    (h : ComesBackIff limits a p) (hp : ¬ p) : ComesBackIff limits a False := by
  rwa [eq_false hp] at h

/-! ## Ids by themselves -/

/-- An id comes back exactly if its header tells the form that it has. -/
theorem IdSort.comesBackIff (limits : Limits) (s : IdSort) {id : s.Id}
    (hlength : Record.length id ≤ 0xffff) : ComesBackIff limits id (s.SoundHeader id) :=
  comesBackIff_of_carries (s.writes_encode hlength) (s.recognizes_decode limits).value
    (s.carries limits hlength)

theorem KindId.accepted_iff {family : KindFamily} (id : KindId family) :
    id.validate = .ok () ↔ id.SoundHeader := by
  cases id with
  | standard code =>
    by_cases hcode : code = experimenterCode
    · simp [validate, SoundHeader, hcode]
    · simp [validate, SoundHeader, hcode]
  | experimenter number data => exact iff_of_true rfl trivial

/-- Validation accepts just the ids with sound headers, and of match fields every id. -/
theorem IdSort.accepted_iff (s : IdSort) (id : s.Id) :
    Record.validate id = .ok () ↔ s = .oxm ∨ s.SoundHeader id := by
  cases s with
  | instruction => exact (KindId.accepted_iff id).trans (or_iff_right (by decide)).symm
  | table => exact iff_of_true rfl (.inr trivial)
  | action => exact (KindId.accepted_iff id).trans (or_iff_right (by decide)).symm
  | oxm => exact iff_of_true rfl (.inl rfl)

theorem IdSort.allAccepted_iff (s : IdSort) (ids : List s.Id) :
    Entry.validateAll ids = .ok () ↔ ∀ id ∈ ids, Record.validate id = .ok () := by
  cases s with
  | instruction => exact validateEach_eq_ok_iff
  | table => exact iff_of_true rfl fun _ _ => rfl
  | action => exact validateEach_eq_ok_iff
  | oxm => exact iff_of_true rfl fun _ _ => rfl

/-! ## Lists of ids -/

namespace TableProperty

/-- A property that was read has ids with sound headers only. -/
theorem soundHeaders_of_run {limits : Limits} {c c' : Cursor} {p : TableProperty}
    (hrun : (decode limits).run c = (.ok p, c')) : p.SoundHeaders := by
  rw [decode_eq] at hrun
  obtain ⟨h, body, tail, -, houtcome⟩ := RecordFormat.opens_of_run_decode hrun (by simp)
  obtain ⟨layout, hlayout, hbody, -⟩ := RecordFormat.outcome_ok_cases houtcome
  obtain ⟨k, -, rfl⟩ := Option.map_eq_some_iff.1 hlayout
  exact ((recognizes_layout limits k h).value (Prod.ext hbody rfl)).2

/-- A property comes back exactly if the headers of its ids tell the forms that these have. -/
theorem comesBackIff {limits : Limits} {p : TableProperty} (hlength : p.declaredLength ≤ 0xffff)
    (hcount : p.idCount ≤ limits.of .propertyIds) : ComesBackIff limits p p.SoundHeaders :=
  comesBackIff_of_carries (p := SoundHeaders) (writes_encode hlength) soundHeaders_of_run
    fun hsound => carries hlength hsound hcount

/-- On the octets of a property, the decoder of its kind does what the decoder of all kinds does. -/
theorem run_decodeAs_octets (limits : Limits) {p : TableProperty}
    (hlength : p.declaredLength ≤ 0xffff) :
    (decodeAs limits p.kind).run (.start p.octets) = (decode limits).run (.start p.octets) := by
  have ho : (Header.ofNats p.kind.code p.declaredLength).Opens p.bodyOctets
      (padding p.declaredLength) (Cursor.start p.octets).rest :=
    Header.opens_ofNats p.kind.code_lt (Nat.lt_succ_of_le hlength) p.declaredLength_eq _
  have hnames : Kinded.Names (α := TableProperty) p.kind
      (Header.ofNats p.kind.code p.declaredLength).code := by
    rw [Header.code_ofNats _ p.kind.code_lt]
    refine ⟨p.kind, ?_, rfl⟩
    show p.kind.sameLayout p.kind = true
    cases p.kind <;> simp [TablePropertyKind.sameLayout]
  rw [(readsOnly limits p.kind).own ho hnames, decode_eq, RecordFormat.run_decode ho]

/-- Validation accepts just the lists of ids with sound headers, and of match fields every list. -/
theorem idList_accepted_iff (kind : IdListKind) (ids : List kind.sort.Id) :
    Record.validate (idList kind ids) = .ok () ↔
      kind.sort = .oxm ∨ ∀ id ∈ ids, kind.sort.SoundHeader id := by
  have hall : Record.validate (idList kind ids) = .ok () ↔
      ∀ id ∈ ids, kind.sort = .oxm ∨ kind.sort.SoundHeader id :=
    (kind.sort.allAccepted_iff ids).trans
      (forall₂_congr fun id _ => kind.sort.accepted_iff id)
  rw [hall]
  by_cases hsort : kind.sort = .oxm <;> simp [hsort]

end TableProperty

/-! ## What validation lets pass -/

/-- Which ids come back, and which of them validation lets pass. An id whose length fits comes back
    exactly if its header is sound, and a list of ids, read as a property of any kind or of its own,
    exactly if all headers are. Validation lets the same ids and lists pass, but of match fields
    it lets all pass. -/
theorem ids_come_back_iff (limits : Limits) :
    (∀ (s : IdSort) (id : s.Id), Record.length id ≤ 0xffff →
        ComesBackIff limits id (s.SoundHeader id)
          ∧ (Record.validate id = .ok () ↔ s = .oxm ∨ s.SoundHeader id))
      ∧ ∀ (kind : IdListKind) (ids : List kind.sort.Id),
        let p := TableProperty.idList kind ids
        p.declaredLength ≤ 0xffff → ids.length ≤ limits.of .propertyIds →
          ComesBackIff limits p (∀ id ∈ ids, kind.sort.SoundHeader id)
            ∧ (TableProperty.decodeAs limits (.ids kind)).run (.start p.octets)
              = (TableProperty.decode limits).run (.start p.octets)
            ∧ (Record.validate p = .ok () ↔
              kind.sort = .oxm ∨ ∀ id ∈ ids, kind.sort.SoundHeader id) := by
  refine ⟨fun s id hlength => ?_, fun kind ids => ?_⟩
  · exact ⟨s.comesBackIff limits hlength, s.accepted_iff id⟩
  · intro p hlength hcount
    exact ⟨TableProperty.comesBackIff hlength hcount,
      TableProperty.run_decodeAs_octets limits hlength,
      TableProperty.idList_accepted_iff kind ids⟩

/-- Ids whose headers are not sound, by themselves and in a list, do not come back. Validation
    refuses the one of an action and lets those of match fields pass. -/
theorem unsound_ids_are_judged :
    let id : OxmId := .basic ⟨0xffff0004⟩
    let ids : List OxmId := [id, .basic ⟨0x00002320⟩]
    let p := TableProperty.idList .matching ids
    let actionId : ActionId := .standard experimenterCode
    (Record.length id ≤ 0xffff ∧ ComesBackIff .standard id False ∧ Record.validate id = .ok ())
      ∧ (p.declaredLength ≤ 0xffff ∧ ids.length ≤ Limits.standard.of .propertyIds
        ∧ ComesBackIff .standard p False ∧ Record.validate p = .ok ())
      ∧ Record.length actionId ≤ 0xffff ∧ ComesBackIff .standard actionId False
        ∧ Record.validate actionId ≠ .ok () := by
  intro id ids p actionId
  have hid : ¬ id.SoundHeader := by decide
  have hids : ¬ ∀ i ∈ ids, i.SoundHeader := fun h => hid (h id List.mem_cons_self)
  have hactionId : ¬ actionId.SoundHeader := by decide
  obtain ⟨hback, haccepted⟩ := (ids_come_back_iff .standard).1 .oxm id (by decide)
  obtain ⟨hbackList, -, hacceptedList⟩ :=
    (ids_come_back_iff .standard).2 .matching ids (by decide) (by decide)
  obtain ⟨hbackAction, hacceptedAction⟩ :=
    (ids_come_back_iff .standard).1 .action actionId (by decide)
  exact ⟨⟨by decide, hback.of_not hid, haccepted.2 (.inl rfl)⟩,
    ⟨by decide, by decide, hbackList.of_not hids, hacceptedList.2 (.inl rfl)⟩,
    by decide, hbackAction.of_not hactionId,
    fun h => (hacceptedAction.1 h).elim (by decide) hactionId⟩

/-- An id of a match field that is let pass and is no id when it is read, and a list of two such ids
    that is read as a list of one. -/
theorem oxmIds_do_not_come_back :
    let id : OxmId := .basic ⟨0xffff0004⟩
    let two := TableProperty.idList .matching [OxmId.basic ⟨0xffff0004⟩, OxmId.basic ⟨0x00002320⟩]
    let one := TableProperty.idList .matching [OxmId.experimenter ⟨0xffff0004⟩ 0x2320]
    (Record.validate id = .ok () ∧ Record.length id ≤ 0xffff
        ∧ Record.octets id = .ok [0xff, 0xff, 0x00, 0x04]
        ∧ (Record.ofOctets [0xff, 0xff, 0x00, 0x04] : Except DecodeError OxmId)
          = .error (.truncated .oxmId 8 4))
      ∧ Record.validate two = .ok () ∧ two.declaredLength ≤ 0xffff
        ∧ Record.octets two = .ok two.octets
        ∧ Record.ofOctets two.octets = .ok one ∧ one ≠ two := by
  refine ⟨⟨rfl, by decide, rfl, rfl⟩, rfl, by decide, rfl, rfl, by decide⟩

end OpenFlow
