import OpenFlow.Proofs.Oxm.Chain
import OpenFlow.Proofs.RoundTrip.Match

set_option autoImplicit false

/-! # The canonical form of a set of fields

A wildcard asks for nothing and a mask of all ones is none, so nothing is lost if a set of fields
does without either (`KeyedSet.canonical`). Sets that mean the same have one canonical form
(`KeyedSet.canonical_eq_of_same`). Two things follow from that.

Valid sets mean the same if and only if their canonical forms have the same octets
(`KeyedSet.same_iff_octets_canonical`). Validity is needed because wildcards of different values are
left out alike and yet do not mean the same; that the octets tell the fields is what reading them
back comes to.

What a match asks for of its fields can be told from its canonical form, and so can the first field
that does not find what it asks for. So checking matches that mean the same comes to the same, valid
or not (`Match.checkPrerequisites_eq_of_same`). -/

namespace OpenFlow

/-! ## Fields -/

namespace Field

theorem normal_normal (f : Field) : f.normal.normal = f.normal := by
  have heffective : f.normal.effectiveMask = f.effectiveMask := by
    simp [effectiveMask, normal, Option.filter_filter]
  rw [normal, heffective]
  rfl

theorem same_normal (f : Field) : f.same f.normal = true := same_iff.2 f.normal_normal.symm

theorem normal_same (f : Field) : f.normal.same f = true := same_symm f.same_normal

/-- What means the same as a wildcard is one. -/
theorem isWildcard_eq_of_same {f g : Field} (h : f.same g = true) :
    f.isWildcard = g.isWildcard := by
  have hsymm : g.same f = true := same_symm h
  cases hf : f.isWildcard with
  | true => rw [← eq_of_same_isWildcard h hf, hf]
  | false =>
    cases hg : g.isWildcard with
    | false => rfl
    | true => rw [← eq_of_same_isWildcard hsymm hg, hg] at hf; cases hf

theorem isWildcard_normal (f : Field) : f.normal.isWildcard = f.isWildcard :=
  isWildcard_eq_of_same f.normal_same

theorem isExact_normal (f : Field) : f.normal.isExact = f.isExact := by
  simp [isExact, effectiveMask, normal, Option.filter_filter]

theorem exactValue?_normal (f : Field) : f.normal.exactValue? = f.exactValue? := by
  rw [exactValue?, isExact_normal]
  rfl

theorem exactValue?_of_isWildcard {f : Field} (h : f.isWildcard = true) :
    f.exactValue? = none := by
  have hexact : f.isExact = false := by
    refine Bool.eq_false_iff.2 fun hexact => ?_
    rw [isWildcard_of_isExact hexact] at h
    cases h
  rw [exactValue?, hexact]
  rfl

theorem checkMask_of_validate {f : Field} (h : f.validate = .ok ()) : f.checkMask = .ok () :=
  (run_and_then_eq_ok_iff.1 (mapError_eq_ok_iff.1 h)).1

end Field

/-! ## Sets -/

namespace KeyedSet

section Entries

variable {α : Type}

/-- Puts in place of each entry what `f` makes of it. -/
def mapEntries (f : α → α) (s : KeyedSet α) : KeyedSet α :=
  ⟨s.slots.map (Prod.map id f), by rw [List.map_map]; exact s.ascending⟩

theorem toList_mapEntries (f : α → α) (s : KeyedSet α) :
    (s.mapEntries f).toList = s.toList.map f := by
  unfold mapEntries toList
  rw [List.map_map, List.map_map]
  rfl

theorem get?_mapEntries (f : α → α) (s : KeyedSet α) (key : Nat) :
    (s.mapEntries f).get? key = (s.get? key).map f := by
  show (s.slots.map (Prod.map id f)).lookup key = (s.slots.lookup key).map f
  induction s.slots with
  | nil => rfl
  | cons slot slots ih =>
    obtain ⟨k, a⟩ := slot
    rw [List.map_cons, Prod.map_apply, lookup_cons_eq_ite, lookup_cons_eq_ite, ih, id_eq]
    split <;> rfl

theorem toList_retain (s : KeyedSet α) (p : α → Bool) :
    (s.retain p).toList = s.toList.filter p := by
  show (s.slots.filter (p ·.2)).map Prod.snd = (s.slots.map Prod.snd).filter p
  rw [List.filter_map]
  rfl

end Entries

/-- The set without wildcards and without masks of all ones. -/
def canonical (s : KeyedSet Field) : KeyedSet Field :=
  (s.retain (!·.isWildcard)).mapEntries Field.normal

theorem toList_canonical (s : KeyedSet Field) :
    s.canonical.toList = (s.toList.filter (!·.isWildcard)).map Field.normal := by
  rw [canonical, toList_mapEntries, toList_retain]

/-- What the canonical form leaves of what is under a key. -/
def canonicalSlot (f : Option Field) : Option Field :=
  (f.filter (!·.isWildcard)).map Field.normal

theorem get?_canonical (s : KeyedSet Field) (key : Nat) :
    s.canonical.get? key = canonicalSlot (s.get? key) := by
  rw [canonical, get?_mapEntries, get?_retain, canonicalSlot]

theorem canonicalSlot_of_isWildcard {f : Field} (h : f.isWildcard = true) :
    canonicalSlot (some f) = none := by
  simp [canonicalSlot, Option.filter, h]

theorem canonicalSlot_of_not_isWildcard {f : Field} (h : f.isWildcard = false) :
    canonicalSlot (some f) = some f.normal := by
  simp [canonicalSlot, Option.filter, h]

/-- Where each of two fields, or of their absences, will do for the other, the same is left. -/
theorem canonicalSlot_eq_of_answers {f g : Option Field} (hfg : Answers f g) (hgf : Answers g f) :
    canonicalSlot f = canonicalSlot g := by
  match f, g with
  | none, none => rfl
  | some a, none => exact canonicalSlot_of_isWildcard hfg
  | none, some b => exact (canonicalSlot_of_isWildcard hgf).symm
  | some a, some b =>
    have hwild : a.isWildcard = b.isWildcard := Field.isWildcard_eq_of_same hfg
    cases hb : b.isWildcard with
    | true =>
      rw [canonicalSlot_of_isWildcard (hwild.trans hb), canonicalSlot_of_isWildcard hb]
    | false =>
      rw [canonicalSlot_of_not_isWildcard (hwild.trans hb), canonicalSlot_of_not_isWildcard hb]
      exact congrArg some (Field.same_iff.1 hfg)

/-- Sets that mean the same have one canonical form. -/
theorem canonical_eq_of_same {s t : KeyedSet Field} (h : s.same t = true) :
    s.canonical = t.canonical := by
  refine ext_get? fun key => ?_
  obtain ⟨hst, hts⟩ := same_iff.1 h key
  rw [get?_canonical, get?_canonical, canonicalSlot_eq_of_answers hst hts]

/-- A set means the same as its canonical form. -/
theorem same_canonical (s : KeyedSet Field) : s.same s.canonical = true := by
  refine same_iff.2 fun key => ?_
  rw [get?_canonical]
  cases s.get? key with
  | none => exact ⟨trivial, trivial⟩
  | some f =>
    cases hf : f.isWildcard with
    | true =>
      rw [canonicalSlot_of_isWildcard hf]
      exact ⟨hf, trivial⟩
    | false =>
      rw [canonicalSlot_of_not_isWildcard hf]
      exact ⟨f.same_normal, f.normal_same⟩

/-- Valid sets mean the same if and only if they have one canonical form. -/
theorem same_iff_canonical_eq {s t : KeyedSet Field} (hs : s.WellKeyed) (ht : t.WellKeyed)
    (hsvalid : ∀ f ∈ s.toList, f.validate = .ok ())
    (htvalid : ∀ f ∈ t.toList, f.validate = .ok ()) :
    s.same t = true ↔ s.canonical = t.canonical := by
  refine ⟨canonical_eq_of_same, fun h => ?_⟩
  have hst : s.canonical.same t = true := by rw [h, same_comm, same_canonical]
  exact same_trans_of_checked hs ht (fun f hf => Field.checkMask_of_validate (hsvalid f hf))
    (fun f hf => Field.checkMask_of_validate (htvalid f hf)) s.same_canonical hst

/-! ## Octets -/

theorem WellKeyed.canonical {s : KeyedSet Field} (h : s.WellKeyed) : s.canonical.WellKeyed := by
  intro slot hslot
  obtain ⟨⟨key, f⟩, hf, rfl⟩ := List.mem_map.1 hslot
  exact h.filterSlots _ (key, f) hf

/-- A set of fields is written and read back, whatever its fields. -/
theorem carriesAlone_fields {s : KeyedSet Field} (h : s.WellKeyed) :
    CarriesAlone .standard (s.toList.flatMap Field.octets) s :=
  carriesAlone h (fun f _ => f.carries .standard) (fun f _ => f.octets_ne_nil)
    (Nat.le_trans (size_le h) (by decide))

/-- The octets tell sets apart, as the sets are read back from them. -/
theorem exists_octets_eq_iff {s t : KeyedSet Field} (hs : s.WellKeyed) (ht : t.WellKeyed) :
    ∃ bs cs, Record.octets s = .ok bs ∧ Record.octets t = .ok cs ∧ (s = t ↔ bs = cs) := by
  have hscarries := carriesAlone_fields hs
  have htcarries := carriesAlone_fields ht
  refine ⟨_, _, hscarries.writes.toExcept_eq, htcarries.writes.toExcept_eq, ?_⟩
  refine ⟨fun h => by rw [h], fun h => ?_⟩
  have hread := hscarries.ofOctetsWithin_eq
  rw [h, htcarries.ofOctetsWithin_eq] at hread
  exact (Except.ok.inj hread).symm

/-- Sets of valid fields, built by whatever steps, mean the same if and only if their canonical
    forms have the same octets. -/
theorem same_iff_octets_canonical (steps steps' : List (SetStep Field))
    (hvalid : ∀ f ∈ (run steps).toList, f.validate = .ok ())
    (hvalid' : ∀ f ∈ (run steps').toList, f.validate = .ok ()) :
    ∃ bs cs, Record.octets (run steps).canonical = .ok bs
      ∧ Record.octets (run steps').canonical = .ok cs
      ∧ ((run steps).same (run steps') = true ↔ bs = cs) := by
  have hkeyed := wellKeyed_run Field.kindsDecideKeys steps
  have hkeyed' := wellKeyed_run Field.kindsDecideKeys steps'
  rw [same_iff_canonical_eq hkeyed hkeyed' hvalid hvalid']
  exact exists_octets_eq_iff hkeyed.canonical hkeyed'.canonical

/-- The one set has a wildcard and a mask of all ones that the other does without. -/
theorem octets_canonical_wildcard_fullMask :
    let steps : List (SetStep Field) := [.insert ⟨.metadata, 5, some 0xffffffffffffffff⟩,
      .insert ⟨.ipv4Dst, 0x0a000000#32, some 0xff000000#32⟩, .insert ⟨.ipv4Src, 0, some 0⟩]
    let steps' : List (SetStep Field) := [.insert ⟨.ipv4Dst, 0x0a000000#32, some 0xff000000#32⟩,
      .insert ⟨.metadata, 5, none⟩]
    (∀ f ∈ (run steps).toList, f.validate = .ok ())
      ∧ (∀ f ∈ (run steps').toList, f.validate = .ok ()) ∧ (run steps).same (run steps') = true
      ∧ ∃ bs, Record.octets (run steps).canonical = .ok bs
        ∧ Record.octets (run steps').canonical = .ok bs := by
  intro steps steps'
  have hvalid : ∀ f ∈ (run steps).toList, f.validate = .ok () := by decide
  have hvalid' : ∀ f ∈ (run steps').toList, f.validate = .ok () := by decide
  have hsame : (run steps).same (run steps') = true := by decide
  obtain ⟨bs, cs, hbs, hcs, hiff⟩ := same_iff_octets_canonical steps steps' hvalid hvalid'
  obtain rfl : bs = cs := hiff.1 hsame
  exact ⟨hvalid, hvalid', hsame, bs, hbs, hcs⟩

end KeyedSet

/-! ## Prerequisites -/

namespace Match

/-- A wildcard meets no prerequisite, and a mask of all ones takes nothing from a field. -/
theorem meets_canonical (fields : KeyedSet Field) (p : Prerequisite) :
    meets fields.canonical p = meets fields p := by
  unfold meets
  rw [KeyedSet.get?_canonical]
  cases fields.get? p.field.oxmType with
  | none => rfl
  | some f =>
    cases hf : f.isWildcard with
    | true =>
      rw [KeyedSet.canonicalSlot_of_isWildcard hf, Option.bind_some,
        Field.exactValue?_of_isWildcard hf]
      rfl
    | false =>
      rw [KeyedSet.canonicalSlot_of_not_isWildcard hf, Option.bind_some, Option.bind_some,
        Field.exactValue?_normal]

theorem checkPrerequisite_canonical (fields : KeyedSet Field) (f : Field) :
    checkPrerequisite fields.canonical f.normal = checkPrerequisite fields f := by
  unfold checkPrerequisite
  simp only [Field.isWildcard_normal, meets_canonical]
  rfl

theorem checkPrerequisite_of_isWildcard {fields : KeyedSet Field} {f : Field}
    (h : f.isWildcard = true) : checkPrerequisite fields f = .ok () := by
  rw [checkPrerequisite, if_pos h]

/-- The canonical form asks for what the match asks for, in the same order. -/
theorem checkPrerequisites_canonical (m : Match) :
    (⟨m.fields.canonical⟩ : Match).checkPrerequisites = m.checkPrerequisites := by
  unfold checkPrerequisites
  rw [KeyedSet.toList_canonical, validateEach_map]
  simp only [checkPrerequisite_canonical]
  refine validateEach_filter fun f hf => checkPrerequisite_of_isWildcard ?_
  simpa using hf

/-- Of matches that mean the same either all find what they depend on, or the same field is the
    first that does not, for want of the same other. -/
theorem checkPrerequisites_eq_of_same {m n : Match} (h : m.same n = true) :
    m.checkPrerequisites = n.checkPrerequisites := by
  rw [← m.checkPrerequisites_canonical, ← n.checkPrerequisites_canonical,
    KeyedSet.canonical_eq_of_same h]

/-- A wildcard for the ethertype does not make up for the ethertype that the IP protocol asks
    for. -/
theorem checkPrerequisites_wildcard_ethertype :
    let m : Match := ⟨.ofList [⟨.ethType, 0x0800#16, some 0⟩, ⟨.ipProto, 6#8, some 0xff#8⟩,
      ⟨.tcpDst, 80#16, none⟩]⟩
    let n : Match := ⟨.ofList [⟨.tcpDst, 80#16, some 0xffff#16⟩, ⟨.ipProto, 6#8, none⟩]⟩
    m.same n = true ∧ m.checkPrerequisites = n.checkPrerequisites
      ∧ m.checkPrerequisites = .error (.missingPrerequisite "ip_proto" "eth_type") := by
  intro m n
  have hsame : m.same n = true := by decide
  exact ⟨hsame, checkPrerequisites_eq_of_same hsame, by decide⟩

end Match

end OpenFlow
