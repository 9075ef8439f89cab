import OpenFlow.Match
import OpenFlow.Proofs.KeyedSet.Same
import OpenFlow.Proofs.Validation.Sequence

set_option autoImplicit false

/-! # Chains of prerequisites

A field depends on another, which may depend on a third, and so on: a link-layer address of
neighbor discovery needs an ICMPv6 type, that needs an IP protocol, and that an ethertype.
`OxmKind.Demands` is the whole chain. Checking a match looks at the first link of each field only,
which is enough: a field with a value that will do counts in full, so it is no wildcard, and its own
first link is looked at too (`Match.holds_of_demands`). A match is therefore valid exactly when its
fields are and all links of all chains hold, and no valid match holds two fields whose chains ask
for different values of one field (`Match.validate_eq_ok_iff`). -/

namespace OpenFlow

/-! ## Chains -/

/-- What a field depends on, by itself or through what it depends on. -/
inductive OxmKind.Demands : OxmKind → Prerequisite → Prop where
  | direct {k : OxmKind} {p : Prerequisite} (first : k.prerequisite = some p) : k.Demands p
  | through {k : OxmKind} {p q : Prerequisite} (first : k.prerequisite = some p)
      (rest : p.field.Demands q) : k.Demands q

/-- The two fields depend on one field, but there is no value of it that will do for both. -/
def OxmKind.Clashes (k l : OxmKind) : Prop :=
  ∃ p q : Prerequisite, k.Demands p ∧ l.Demands q ∧ p.field = q.field
    ∧ ∀ value, p.requirement.accepts value = true → q.requirement.accepts value = false

theorem OxmKind.clashes_of_oneOf {k l field : OxmKind} {values values' : List Nat}
    (hk : k.Demands (.on field values)) (hl : l.Demands (.on field values'))
    (hdisjoint : ∀ value ∈ values, value ∉ values') : k.Clashes l := by
  refine ⟨_, _, hk, hl, rfl, fun value hvalue => ?_⟩
  have hout : value ∉ values' := hdisjoint value (List.contains_iff_mem.1 hvalue)
  exact Bool.eq_false_iff.2 fun h => hout (List.contains_iff_mem.1 h)

/-- Fields depend on fields of numbers. -/
theorem OxmKind.isInteger_of_prerequisite {k : OxmKind} {p : Prerequisite}
    (h : k.prerequisite = some p) : p.field.shape.isInteger = true := by
  cases k <;> cases h <;> rfl

/-! ## Fields that count in full -/

namespace Field

/-- No field counts in full and not at all. -/
theorem isWildcard_of_isExact {f : Field} (h : f.isExact = true) : f.isWildcard = false := by
  cases hwild : f.isWildcard with
  | false => rfl
  | true =>
    have heffective : f.effectiveMask = some 0 := by
      rw [effectiveMask, isWildcard_iff.1 hwild, Option.filter, isAllOnes_zero]
      rfl
    rw [isExact, heffective] at h
    cases h

theorem exactValue?_eq_some_iff {f : Field} (hint : f.kind.shape.isInteger = true) {value : Nat} :
    f.exactValue? = some value ↔ f.isExact = true ∧ f.value.toNat = value := by
  unfold exactValue? Value.toNat?
  rw [if_pos hint]
  cases f.isExact <;> simp

end Field

/-! ## Matches -/

namespace Match

/-- The match holds the field that is asked for, which counts in full and has a value that will
    do. -/
def Holds (m : Match) (p : Prerequisite) : Prop :=
  ∃ g ∈ m.fields.toList, g.kind = p.field ∧ g.isExact = true
    ∧ p.requirement.accepts g.value.toNat = true

theorem meets_iff_holds {m : Match} (hkeyed : m.fields.WellKeyed) {p : Prerequisite}
    (hint : p.field.shape.isInteger = true) : meets m.fields p = true ↔ m.Holds p := by
  constructor
  · intro h
    unfold meets at h
    split at h
    · rename_i value hvalue
      obtain ⟨g, hget, hexact⟩ := Option.bind_eq_some_iff.1 hvalue
      obtain ⟨hg, hkey⟩ := hkeyed.get?_eq_some_iff.1 hget
      have hkind : g.kind = p.field := OxmKind.oxmType_injective hkey
      obtain ⟨hg', rfl⟩ := (Field.exactValue?_eq_some_iff (hkind ▸ hint)).1 hexact
      exact ⟨g, hg, hkind, hg', h⟩
    · cases h
  · rintro ⟨g, hg, hkind, hexact, haccepts⟩
    have hget : m.fields.get? p.field.oxmType = some g :=
      hkeyed.get?_eq_some_iff.2 ⟨hg, congrArg OxmKind.oxmType hkind⟩
    have hvalue : g.exactValue? = some g.value.toNat :=
      (Field.exactValue?_eq_some_iff (hkind ▸ hint)).2 ⟨hexact, rfl⟩
    unfold meets
    rw [hget, Option.bind_some, hvalue]
    exact haccepts

/-- The check of a field is about the first link of its chain, if the field is no wildcard. -/
theorem checkPrerequisite_eq_ok_iff {m : Match} (hkeyed : m.fields.WellKeyed) {f : Field} :
    checkPrerequisite m.fields f = .ok () ↔
      (f.isWildcard = false → ∀ p, f.kind.prerequisite = some p → m.Holds p) := by
  unfold checkPrerequisite
  cases f.isWildcard with
  | true => simp
  | false =>
    cases hp : f.kind.prerequisite with
    | none => simp
    | some p =>
      have hmeets := meets_iff_holds hkeyed (OxmKind.isInteger_of_prerequisite hp)
      cases hm : meets m.fields p <;> simp [← hmeets, hm]

/-- Where the first link of every field holds, all links do: what holds a link counts in full, so
    it is no wildcard, and its own first link holds. -/
theorem holds_of_demands {m : Match}
    (hfirst : ∀ f ∈ m.fields.toList, f.isWildcard = false →
      ∀ p, f.kind.prerequisite = some p → m.Holds p)
    {k : OxmKind} {q : Prerequisite} (h : k.Demands q) :
    ∀ f ∈ m.fields.toList, f.kind = k → f.isWildcard = false → m.Holds q := by
  induction h with
  | direct first =>
    rintro f hf rfl hwild
    exact hfirst f hf hwild _ first
  | through first _ ih =>
    rintro f hf rfl hwild
    obtain ⟨g, hg, hkind, hexact, -⟩ := hfirst f hf hwild _ first
    exact ih g hg hkind (Field.isWildcard_of_isExact hexact)

/-- A field stands in a match once. -/
theorem eq_of_kind_eq {m : Match} (hkeyed : m.fields.WellKeyed) {f g : Field}
    (hf : f ∈ m.fields.toList) (hg : g ∈ m.fields.toList) (hkind : f.kind = g.kind) : f = g := by
  have hf' := hkeyed.get?_eq_some_iff.2 ⟨hf, rfl⟩
  have hg' := hkeyed.get?_eq_some_iff.2 ⟨hg, congrArg OxmKind.oxmType hkind.symm⟩
  exact Option.some.inj (hf'.symm.trans hg')

/-- No one value will do for two links that clash. -/
theorem not_clashes_of_holds {m : Match} (hkeyed : m.fields.WellKeyed)
    (hholds : ∀ f ∈ m.fields.toList, f.isWildcard = false → ∀ p, f.kind.Demands p → m.Holds p)
    {f g : Field} (hf : f ∈ m.fields.toList) (hg : g ∈ m.fields.toList)
    (hfwild : f.isWildcard = false) (hgwild : g.isWildcard = false) :
    ¬ f.kind.Clashes g.kind := by
  rintro ⟨p, q, hp, hq, hfield, hdisjoint⟩
  obtain ⟨a, ha, hakind, -, haccepts⟩ := hholds f hf hfwild p hp
  obtain ⟨b, hb, hbkind, -, hbccepts⟩ := hholds g hg hgwild q hq
  -- both links are held by the one field of that kind
  obtain rfl : a = b := eq_of_kind_eq hkeyed ha hb (hakind.trans (hfield.trans hbkind.symm))
  rw [hdisjoint _ haccepts] at hbccepts
  cases hbccepts

/-- A match whose fields stand under their own keys, as those of every match do
    (`KeyedSet.wellKeyed_run`), is valid exactly when its fields are and, for each field that is no
    wildcard, the match holds every link of the chain of prerequisites. Then no two such fields
    have chains that clash, as those of TCP and UDP ports and of addresses of IPv4 and IPv6 do. -/
theorem validate_eq_ok_iff {m : Match} (hkeyed : m.fields.WellKeyed) :
    (m.validate = .ok () ↔ (∀ f ∈ m.fields.toList, f.validate = .ok ())
        ∧ ∀ f ∈ m.fields.toList, f.isWildcard = false → ∀ p, f.kind.Demands p → m.Holds p)
      ∧ (m.validate = .ok () → ∀ f ∈ m.fields.toList, ∀ g ∈ m.fields.toList,
        f.isWildcard = false → g.isWildcard = false → ¬ f.kind.Clashes g.kind)
      ∧ OxmKind.Clashes .tcpSrc .udpDst ∧ OxmKind.Clashes .ipv4Src .ipv6Dst := by
  have hvalidate : m.validate = .ok () ↔ (∀ f ∈ m.fields.toList, f.validate = .ok ())
      ∧ ∀ f ∈ m.fields.toList, f.isWildcard = false → ∀ p, f.kind.Demands p → m.Holds p := by
    have hchecks : m.validate = .ok () ↔ (∀ f ∈ m.fields.toList, f.validate = .ok ())
        ∧ ∀ f ∈ m.fields.toList, checkPrerequisite m.fields f = .ok () :=
      run_and_then_eq_ok_iff.trans (and_congr validateEach_eq_ok_iff validateEach_eq_ok_iff)
    rw [hchecks]
    refine and_congr_right fun _ => ?_
    simp only [checkPrerequisite_eq_ok_iff hkeyed]
    constructor
    · intro hfirst f hf hwild p hp
      exact holds_of_demands hfirst hp f hf rfl hwild
    · intro hall f hf hwild p hp
      exact hall f hf hwild p (.direct hp)
  refine ⟨hvalidate, ?_, ?_, ?_⟩
  · intro hvalid f hf g hg
    exact not_clashes_of_holds hkeyed (hvalidate.1 hvalid).2 hf hg
  · exact OxmKind.clashes_of_oneOf (.direct rfl) (.direct rfl) (by decide)
  · exact OxmKind.clashes_of_oneOf (.direct rfl) (.direct rfl) (by decide)

/-- A neighbor solicitation beside a wildcard for addresses of IPv4: the wildcard asks for nothing,
    and the chain of the link-layer address is held to its end, the ethertype. -/
theorem holds_ethertype_of_solicitation :
    let m : Match := ⟨.ofList [⟨.ipv6NdSll, 0x020000000001#48, none⟩, ⟨.icmpv6Type, 135#8, none⟩,
      ⟨.ipProto, 58#8, none⟩, ⟨.ethType, 0x86dd#16, none⟩, ⟨.ipv4Src, 0#32, some 0#32⟩]⟩
    m.fields.WellKeyed ∧ m.validate = .ok ()
      ∧ m.Holds (.onEthertype [Ethertype.ipv4, Ethertype.ipv6]) := by
  intro m
  have hkeyed : m.fields.WellKeyed := KeyedSet.wellKeyed_ofList _
  have hvalid : m.validate = .ok () := by decide
  have hmem : (⟨.ipv6NdSll, 0x020000000001#48, none⟩ : Field) ∈ m.fields.toList := by decide
  have hchain : OxmKind.ipv6NdSll.Demands (.onEthertype [Ethertype.ipv4, Ethertype.ipv6]) :=
    .through rfl (.through rfl (.direct rfl))
  exact ⟨hkeyed, hvalid, ((validate_eq_ok_iff hkeyed).1.1 hvalid).2 _ hmem (by decide) _ hchain⟩

end Match

end OpenFlow
