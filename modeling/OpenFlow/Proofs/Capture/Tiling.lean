import OpenFlow.Capture.Inspection
import OpenFlow.Proofs.Pace.Record
import OpenFlow.Proofs.Scanning.Grammar

set_option autoImplicit false

/-! # Which octets an inspection accounts for

The findings of an inspection lie next to each other (`Tiles`). In a capture of records they lie
from its start to its end, and the capture is no larger than the limits allow. In a capture of a
match they lie from the end of the header to the length that the header declares, and only the
octets between are held against the limits: what comes after them is not looked at, be it padding,
too little of it, or anything else (`Inspection.accountsFor_iff`). -/

namespace OpenFlow

/-! ## Findings next to each other -/

/-- The findings lie next to each other, in order, from `start` to `stop`. -/
inductive Tiles : Nat → List Finding → Nat → Prop where
  | nil (start : Nat) : Tiles start [] start
  | cons {start stop : Nat} {f : Finding} {fs : List Finding} (hstart : f.offset = start)
      (hpos : 0 < f.stride) (rest : Tiles (start + f.stride) fs stop) : Tiles start (f :: fs) stop

/-- The octet at `n` is one of the finding's. -/
def Finding.Covers (f : Finding) (n : Nat) : Prop := f.offset ≤ n ∧ n < f.offset + f.stride

namespace Tiles

variable {start stop : Nat} {fs : List Finding}

theorem start_le (h : Tiles start fs stop) : start ≤ stop := by
  induction h with
  | nil => exact Nat.le_refl _
  | cons _ _ _ ih => exact Nat.le_trans (Nat.le_add_right _ _) ih

theorem offset_bounds (h : Tiles start fs stop) {f : Finding} (hf : f ∈ fs) :
    start ≤ f.offset ∧ f.offset + f.stride ≤ stop := by
  induction h with
  | nil => cases hf
  | cons hstart _ rest ih =>
    rcases List.mem_cons.1 hf with rfl | hf
    · exact ⟨Nat.le_of_eq hstart.symm, hstart ▸ rest.start_le⟩
    · obtain ⟨hle, hstop⟩ := ih hf
      exact ⟨Nat.le_trans (Nat.le_add_right _ _) hle, hstop⟩

/-- Each octet from `start` to `stop` belongs to one finding, and to no other. -/
theorem existsUnique_covers (h : Tiles start fs stop) {n : Nat} (hstart : start ≤ n)
    (hstop : n < stop) : ∃ f ∈ fs, f.Covers n ∧ ∀ g ∈ fs, g.Covers n → g = f := by
  induction h with
  | nil => omega
  | @cons start stop f fs hoffset hpos rest ih =>
    subst hoffset
    by_cases hn : n < f.offset + f.stride
    · refine ⟨f, List.mem_cons_self, ⟨hstart, hn⟩, fun g hg hcovers => ?_⟩
      rcases List.mem_cons.1 hg with rfl | hg
      · rfl
      · -- the others begin where this one ends
        have hle := (rest.offset_bounds hg).1
        exact absurd hcovers.1 (by omega)
    · obtain ⟨g, hg, hcovers, hunique⟩ := ih (Nat.le_of_not_lt hn) hstop
      refine ⟨g, List.mem_cons_of_mem _ hg, hcovers, fun g' hg' hcovers' => ?_⟩
      rcases List.mem_cons.1 hg' with rfl | hg'
      · exact absurd hcovers'.2 hn
      · exact hunique g' hg' hcovers'

end Tiles

namespace Inspection

theorem tiles_ofRecords (family : CaptureFamily) {framing : Framing} {rs : List RawRecord}
    {chunks : List Octets} (h : List.Forall₂ (RawRecord.Spans framing) rs chunks) (offset : Nat) :
    Tiles offset (ofRecords family offset rs) (offset + chunks.flatten.length) := by
  induction h generalizing offset with
  | nil => exact .nil offset
  | @cons r chunk rs chunks hspans _ ih =>
    have hpos : 0 < r.stride := hspans.length_eq ▸ List.length_pos_iff.2 hspans.ne_nil
    rw [List.flatten_cons, List.length_append, hspans.length_eq, ← Nat.add_assoc]
    exact .cons rfl hpos (ih (offset + r.stride))

theorem tiles_ofFields {fs : List RawField} {chunks : List Octets}
    (h : List.Forall₂ RawField.Spans fs chunks) (offset : Nat) :
    Tiles offset (ofFields offset fs) (offset + chunks.flatten.length) := by
  induction h generalizing offset with
  | nil => exact .nil offset
  | @cons f chunk fs chunks hspans _ ih =>
    have hlength : chunk.length = f.stride := by
      rw [hspans.octets_eq, RawField.octets, List.length_append, OxmHeader.length_octets,
        RawField.stride, hspans.length_eq]
    have hpos : 0 < f.stride := hlength ▸ List.length_pos_iff.2 hspans.ne_nil
    rw [List.flatten_cons, List.length_append, hlength, ← Nat.add_assoc]
    exact .cons rfl hpos (ih (offset + f.stride))

end Inspection

/-! ## What is found in a match -/

namespace Header.Opens

variable {h : Header} {body tail bs : Octets} (ho : h.Opens body tail bs)

include ho

theorem length_eq : bs.length = h.size + tail.length := by
  rw [ho.octets_eq, List.length_append, Header.length_octets, List.length_append, ho.size_eq,
    Nat.add_assoc]

theorem take_size : bs.take h.size = h.octets ++ body := by
  have hlength : (h.octets ++ body).length = h.size := by
    rw [List.length_append, Header.length_octets, ho.size_eq]
  rw [ho.octets_eq, ← List.append_assoc, List.take_left' hlength]

/-- The body of an element is what stands between its header and its end. -/
theorem cut : (bs.take h.size).drop headerLength = body := by
  rw [ho.take_size, List.drop_left' h.length_octets]

/-- What stands after an element may be exchanged. -/
theorem exchange (tail' : Octets) : h.Opens body tail' (bs.take h.size ++ tail') := by
  refine ⟨?_, ho.size_eq⟩
  rw [ho.take_size, List.append_assoc]

end Header.Opens

namespace Inspection

/-- The fields of a match are looked for in its body alone. -/
theorem findFields_of_opens {limits : Limits} {h : Header} {body tail bs : Octets}
    (ho : h.Opens body tail bs) :
    findFields limits bs = if h.kind ≠ MatchType.oxm then .error (.matchType h.code)
      else ((Scan.oxmFields limits body).mapError .matchFields).map (ofFields headerLength) := by
  have hexpect : (Header.expect .oxmMatch).run (.start bs) = (.ok h, .start bs) :=
    Header.run_expect ho
  unfold findFields
  rw [hexpect]
  show (if h.kind ≠ MatchType.oxm then _ else _ : Except CaptureError (List Finding)) = _
  split
  · rfl
  · show ((Scan.oxmFields limits ((bs.take h.size).drop headerLength)).mapError .matchFields
      >>= fun raw => pure (ofFields headerLength raw) : Except CaptureError (List Finding)) = _
    rw [ho.cut]
    rfl

theorem findFields_ok_iff {limits : Limits} {bs : Octets} {findings : List Finding} :
    findFields limits bs = .ok findings ↔ ∃ (h : Header) (body tail : Octets) (rs : List RawField),
      h.Opens body tail bs ∧ h.kind = MatchType.oxm ∧ Scan.oxmFields limits body = .ok rs
        ∧ ofFields headerLength rs = findings := by
  constructor
  · intro hfind
    rcases Header.expect_cases .oxmMatch (.start bs) with
      ⟨n, -, herror⟩ | ⟨h, rest, -, -, herror⟩ | ⟨h, body, tail, ho, -⟩
    · unfold findFields at hfind
      rw [herror] at hfind
      cases hfind
    · unfold findFields at hfind
      rw [herror] at hfind
      cases hfind
    · have hopens : h.Opens body tail bs := ho
      rw [findFields_of_opens hopens] at hfind
      split at hfind
      · cases hfind
      · rename_i hkind
        cases hscan : Scan.oxmFields limits body with
        | error e =>
          rw [hscan] at hfind
          cases hfind
        | ok rs =>
          rw [hscan] at hfind
          exact ⟨h, body, tail, rs, hopens, not_not.1 hkind, hscan, Except.ok.inj hfind⟩
  · rintro ⟨h, body, tail, rs, ho, hkind, hscan, rfl⟩
    rw [findFields_of_opens ho, if_neg (not_not.2 hkind), hscan]
    rfl

/-! ## What an inspection accounts for -/

/-- The inspection tells how long the capture is, and its findings lie next to each other: from the
    start of a capture of records to its end, and in a match from the end of the header to the
    length that the header declares. -/
structure Describes (i : Inspection) (bs : Octets) : Prop where
  total_eq : i.totalOctets = bs.length
  records : i.family ≠ .matchFields → Tiles 0 i.findings i.totalOctets
  fields : i.family = .matchFields → ∃ declared, Header.lengthMark.declared? bs = some declared
    ∧ Tiles headerLength i.findings declared

/-- The inspection accounts for all octets of the capture: there are no more than the limits allow,
    and where the findings of a match end its padding follows, and then nothing. -/
structure AccountsFor (i : Inspection) (limits : Limits) (bs : Octets) : Prop
    extends i.Describes bs where
  bounded : i.totalOctets ≤ limits.of .bufferOctets
  ended : i.family = .matchFields → ∃ declared, Header.lengthMark.declared? bs = some declared
    ∧ i.totalOctets = padded declared

variable {limits : Limits} {bs : Octets} {i : Inspection}

theorem ofOctets_ok_iff {family : CaptureFamily} : ofOctets family limits bs = .ok i ↔
    ∃ findings, find family limits bs = .ok findings ∧ ⟨family, bs.length, findings⟩ = i := by
  unfold ofOctets
  cases find family limits bs with
  | error e => simp [bind, Except.bind]
  | ok findings => simp [bind, Except.bind, pure, Except.pure]

theorem find_records_ok_iff {family : CaptureFamily} (hfamily : family ≠ .matchFields)
    {findings : List Finding} : find family limits bs = .ok findings ↔
      ∃ rs, Scan.records family.element family.framing limits bs = .ok rs
        ∧ ofRecords family 0 rs = findings := by
  have hfind : find family limits bs
      = ((Scan.records family.element family.framing limits bs).mapError (.scan family)).map
        (ofRecords family 0) := by
    cases family with
    | matchFields => exact absurd rfl hfamily
    | _ => rfl
  rw [hfind]
  cases Scan.records family.element family.framing limits bs with
  | error e => simp [Except.mapError, Except.map]
  | ok rs => simp [Except.mapError, Except.map]

theorem AccountsFor.total_eq_padded (h : i.AccountsFor limits bs)
    (hfamily : i.family = .matchFields) {declared : Nat}
    (hdeclared : Header.lengthMark.declared? bs = some declared) :
    i.totalOctets = padded declared := by
  obtain ⟨declared', hdeclared', htotal⟩ := h.ended hfamily
  rw [hdeclared] at hdeclared'
  rw [htotal, Option.some.inj hdeclared']

theorem accountsFor_of_records {family : CaptureFamily} (hfamily : family ≠ .matchFields)
    (hok : ofOctets family limits bs = .ok i) : i.AccountsFor limits bs := by
  obtain ⟨findings, hfind, rfl⟩ := ofOctets_ok_iff.1 hok
  obtain ⟨rs, hscan, rfl⟩ := (find_records_ok_iff hfamily).1 hfind
  obtain ⟨hsize, -, chunks, hbs, hchunks⟩ :=
    ((RawRecord.parses _ _).acceptsChunks.ok_iff limits bs rs).1 hscan
  have htiles := tiles_ofRecords family hchunks 0
  rw [← hbs, Nat.zero_add] at htiles
  exact ⟨⟨rfl, fun _ => htiles, fun h => absurd h hfamily⟩, hsize, fun h => absurd h hfamily⟩

theorem ofOctets_match_ok_iff : ofOctets .matchFields limits bs = .ok i ↔
    ∃ (h : Header) (body tail : Octets) (rs : List RawField), h.Opens body tail bs
      ∧ h.kind = MatchType.oxm ∧ Scan.oxmFields limits body = .ok rs
      ∧ ⟨.matchFields, h.size + tail.length, ofFields headerLength rs⟩ = i := by
  rw [ofOctets_ok_iff]
  constructor
  · rintro ⟨findings, hfind, rfl⟩
    obtain ⟨h, body, tail, rs, ho, hkind, hscan, rfl⟩ := findFields_ok_iff.1 hfind
    exact ⟨h, body, tail, rs, ho, hkind, hscan, by rw [ho.length_eq]⟩
  · rintro ⟨h, body, tail, rs, ho, hkind, hscan, rfl⟩
    exact ⟨_, findFields_ok_iff.2 ⟨h, body, tail, rs, ho, hkind, hscan, rfl⟩, by rw [ho.length_eq]⟩

/-- An inspection of records accounts for all octets, and so does that of a match if its padding is
    there, nothing comes after it, and all of it is no more than the limits allow. But none of this
    is asked for: the limits bound the fields, and any octets may stand after these. -/
theorem accountsFor_iff {family : CaptureFamily} (hok : ofOctets family limits bs = .ok i) :
    i.Describes bs ∧ (family ≠ .matchFields → i.AccountsFor limits bs)
      ∧ (family = .matchFields → ∃ declared, Header.lengthMark.declared? bs = some declared
        ∧ declared ≤ headerLength + limits.of .bufferOctets
        ∧ (i.AccountsFor limits bs ↔
            bs.length = padded declared ∧ bs.length ≤ limits.of .bufferOctets)
        ∧ ∀ tail, ofOctets .matchFields limits (bs.take declared ++ tail)
            = .ok ⟨.matchFields, declared + tail.length, i.findings⟩) := by
  by_cases hfamily : family = .matchFields
  · subst hfamily
    obtain ⟨h, body, tail, rs, ho, hkind, hscan, rfl⟩ := ofOctets_match_ok_iff.1 hok
    obtain ⟨hsize, -, chunks, hbody, hchunks⟩ :=
      (RawField.parses.acceptsChunks.ok_iff limits body rs).1 hscan
    have htiles := tiles_ofFields hchunks headerLength
    rw [← hbody, ← ho.size_eq] at htiles
    have hdescribes : Describes ⟨.matchFields, h.size + tail.length, ofFields headerLength rs⟩ bs :=
      ⟨ho.length_eq.symm, fun hne => absurd rfl hne, fun _ => ⟨h.size, ho.declared?, htiles⟩⟩
    refine ⟨hdescribes, fun hne => absurd rfl hne, fun _ => ⟨h.size, ho.declared?, ?_, ?_, ?_⟩⟩
    · rw [ho.size_eq]
      exact Nat.add_le_add_left hsize _
    · constructor
      · intro haccounts
        rw [ho.length_eq]
        exact ⟨haccounts.total_eq_padded rfl ho.declared?, haccounts.bounded⟩
      · rintro ⟨hpadded, hbounded⟩
        rw [ho.length_eq] at hpadded hbounded
        exact ⟨hdescribes, hbounded, fun _ => ⟨h.size, ho.declared?, hpadded⟩⟩
    · intro tail'
      exact ofOctets_match_ok_iff.2 ⟨h, body, tail', rs, ho.exchange tail', hkind, hscan, rfl⟩
  · have haccounts := accountsFor_of_records hfamily hok
    exact ⟨haccounts.toDescribes, fun _ => haccounts, fun h => absurd h hfamily⟩

/-- A match of one field with its padding. -/
theorem accountsFor_padded_match :
    let bs : Octets := [0, 1, 0, 10, 0x80, 0, 10, 2, 8, 0, 0, 0, 0, 0, 0, 0]
    let i : Inspection := ⟨.matchFields, 16,
      [⟨4, OxmKind.ethType.oxmType, some "eth_type", some .ethType, 6, 6⟩]⟩
    ofOctets .matchFields .standard bs = .ok i ∧ i.AccountsFor .standard bs := by
  intro bs i
  have hok : ofOctets .matchFields .standard bs = .ok i := by decide +kernel
  obtain ⟨-, -, hmatch⟩ := accountsFor_iff hok
  obtain ⟨declared, hdeclared, -, hiff, -⟩ := hmatch rfl
  have hmark : Header.lengthMark.declared? bs = some 10 := by decide
  obtain rfl : 10 = declared := Option.some.inj (hmark.symm.trans hdeclared)
  exact ⟨hok, hiff.2 ⟨by decide, by decide⟩⟩

/-- Of a match without fields its inspection does not account for all octets, although it succeeds:
    the padding may be missing, more may follow it, or all may be more than the limits allow. -/
theorem not_accountsFor_open_match :
    let unpadded : Octets := [0, 1, 0, 4]
    let trailed : Octets := [0, 1, 0, 4, 0, 0, 0, 0, 0xff]
    let oversized : Octets := [0, 1, 0, 4, 0, 0, 0, 0]
    let limits := Limits.unlimited.set .bufferOctets 7
    (∃ i, ofOctets .matchFields .unlimited unpadded = .ok i ∧ ¬ i.AccountsFor .unlimited unpadded)
      ∧ (∃ i, ofOctets .matchFields .unlimited trailed = .ok i ∧ ¬ i.AccountsFor .unlimited trailed)
      ∧ ∃ i, ofOctets .matchFields limits oversized = .ok i ∧ ¬ i.AccountsFor limits oversized := by
  intro unpadded trailed oversized limits
  refine ⟨⟨⟨.matchFields, 4, []⟩, by decide +kernel, fun h => ?_⟩,
    ⟨⟨.matchFields, 9, []⟩, by decide +kernel, fun h => ?_⟩,
    ⟨⟨.matchFields, 8, []⟩, by decide +kernel, fun h => ?_⟩⟩
  · have hdeclared : Header.lengthMark.declared? unpadded = some 4 := by decide
    exact absurd (h.total_eq_padded rfl hdeclared) (by decide)
  · have hdeclared : Header.lengthMark.declared? trailed = some 4 := by decide
    exact absurd (h.total_eq_padded rfl hdeclared) (by decide)
  · exact absurd h.bounded (by decide)

end Inspection

end OpenFlow
