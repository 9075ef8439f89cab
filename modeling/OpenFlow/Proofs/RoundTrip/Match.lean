import OpenFlow.Match
import OpenFlow.Proofs.KeyedSet.Lookup
import OpenFlow.Proofs.Oxm.Field

set_option autoImplicit false

/-! # Matches are written and read back

The keys of a set of fields are types of fields, of which there are forty, so a set that was built
by changes of the empty set has at most forty fields (`KeyedSet.size_le`). That is little enough for
the length of a match to fit into its header and for the fields to stay within small limits, so
writing a match and reading it back cannot fail (`Match.roundTrips_run`). -/

namespace OpenFlow

/-! ## Sets of fields -/

theorem OxmKind.mem_all (k : OxmKind) : k ∈ OxmKind.all := by
  cases k <;> decide

theorem Field.kindsDecideKeys : KeyedSet.KindsDecideKeys Field := by
  intro f g h
  have hkind : f.kind = g.kind := eq_of_beq h
  show f.kind.oxmType = g.kind.oxmType
  rw [hkind]

theorem Field.carries (limits : Limits) (f : Field) : Carries limits f.octets f :=
  ⟨rfl, f.length_octets, f.reads_decode⟩

namespace KeyedSet

/-- The keys are different types of fields, and there are only forty. -/
theorem size_le {fields : KeyedSet Field} (h : fields.WellKeyed) : fields.size ≤ 40 :=
  h.size_le (OxmKind.all.map OxmKind.oxmType) fun f =>
    List.mem_map_of_mem (OxmKind.mem_all f.kind)

/-- A field has at most thirty-six octets. -/
theorem length_le (fields : KeyedSet Field) : fields.length ≤ fields.size * 36 := by
  have hlength : fields.length ≤ fields.toList.length * 36 :=
    Sequence.length_le_of_forall fun f _ => f.length_le
  rwa [toList, List.length_map] at hlength

end KeyedSet

/-! ## Matches -/

namespace Match

/-- The octets of a match, where its length does not overflow. -/
def octets (m : Match) : Octets :=
  bigEndian 2 MatchType.oxm.toNat ++ bigEndian 2 m.declaredLength
    ++ m.fields.toList.flatMap Field.octets ++ padding m.declaredLength

theorem fieldOctets_length (m : Match) :
    (m.fields.toList.flatMap Field.octets).length = m.fields.length :=
  Sequence.length_flatMap fun f _ => f.length_octets

@[simp] theorem length_octets (m : Match) : m.octets.length = m.length := by
  have hfields := m.fieldOctets_length
  rw [length, padded, octets, List.length_append, List.length_append, List.length_append,
    length_bigEndian, length_bigEndian, hfields, padding, length_zeros]
  rfl

/-- The length of a match with well-keyed fields fits into its header. -/
theorem declaredLength_le {m : Match} (h : m.fields.WellKeyed) : m.declaredLength ≤ 0xffff := by
  have hlength := m.fields.length_le
  have hsize := KeyedSet.size_le h
  unfold declaredLength headerLength
  omega

/-- A match whose fields stand under their own keys is read back under any limits that admit
    them. -/
theorem carries_of_size_le {limits : Limits} {m : Match} (h : m.fields.WellKeyed)
    (hcount : m.fields.size ≤ limits.of .oxmFields) : Carries limits m.octets m := by
  have hlength : m.declaredLength ≤ 0xffff := declaredLength_le h
  have hfields : CarriesAlone limits (m.fields.toList.flatMap Field.octets) m.fields :=
    KeyedSet.carriesAlone h (fun f _ => f.carries limits) (fun f _ => f.octets_ne_nil) hcount
  have hsize : m.declaredLength
      = headerLength + (m.fields.toList.flatMap Field.octets).length := by
    rw [fieldOctets_length]
    rfl
  refine ⟨?_, m.length_octets, ?_⟩
  · have hheader := Encoding.writes_header .oxmMatch MatchType.oxm.toNat hlength
    exact (hheader.append hfields.writes).append (Encoding.writes_ofOctets _)
  · have hread : (Decoder.elementPadded .oxmMatch MatchType.oxm.toNat
        (.atLeast headerLength fun _ => KeyedSet.decode limits)).Reads m.octets m.fields :=
      Decoder.reads_elementPadded (by decide) (Nat.lt_succ_of_le hlength) hsize
        (decide_eq_true (Nat.le_add_right headerLength _)) hfields.reads
    exact hread.map Match.mk

/-- There are at most forty fields, so limits that admit forty will do. -/
theorem carries {limits : Limits} {m : Match} (h : m.fields.WellKeyed)
    (hlimits : 40 ≤ limits.of .oxmFields) : Carries limits m.octets m :=
  carries_of_size_le h (Nat.le_trans (KeyedSet.size_le h) hlimits)

/-- The match of the fields that changes make of the empty set. -/
def ofSteps (steps : List (SetStep Field)) : Match := ⟨KeyedSet.run steps⟩

/-- A match whose fields were put together by any changes is written, as a multiple of eight octets
    behind a header that tells its type and its length without padding, and is read back as it
    was, under any limits that admit forty fields: the standard ones do, and the small ones. -/
theorem roundTrips_run (steps : List (SetStep Field)) :
    ∃ bs, Record.octets (ofSteps steps) = .ok bs
      ∧ bs.length = (ofSteps steps).length ∧ bs.length % 8 = 0
      ∧ (ofSteps steps).declaredLength ≤ 0xffff
      ∧ bs.take 4 = bigEndian 2 1 ++ bigEndian 2 (ofSteps steps).declaredLength
      ∧ (∀ limits : Limits, 40 ≤ limits.of .oxmFields →
        Record.ofOctetsWithin limits bs = .ok (ofSteps steps))
      ∧ Record.ofOctetsWithin .standard bs = .ok (ofSteps steps)
      ∧ Record.ofOctetsWithin .small bs = .ok (ofSteps steps) := by
  have hkeyed : (ofSteps steps).fields.WellKeyed :=
    KeyedSet.wellKeyed_run Field.kindsDecideKeys steps
  -- nothing else about the steps matters
  generalize ofSteps steps = m at hkeyed
  have hwithin (limits : Limits) (hlimits : 40 ≤ limits.of .oxmFields) :
      Record.ofOctetsWithin limits m.octets = .ok m :=
    (carries hkeyed hlimits).alone.ofOctetsWithin_eq
  have hstandard : Carries .standard m.octets m := carries hkeyed (by decide)
  refine ⟨m.octets, hstandard.writes.toExcept_eq, m.length_octets, ?_, declaredLength_le hkeyed,
    ?_, hwithin, hwithin .standard (by decide), hwithin .small (by decide)⟩
  · rw [length_octets]
    exact padded_mod m.declaredLength
  · rw [octets, List.append_assoc]
    exact List.take_left' (by simp)

/-- A field that takes the place of another, and one that is stored over another, both under masks
    that may not be given; the limits admit forty fields and no more. -/
theorem roundTrips_run_replaced :
    let steps : List (SetStep Field) :=
      [.extend [⟨.ethType, 0x0800#16, none⟩, ⟨.inPort, 7#32, none⟩],
        .replace ⟨.ethType, 0x86dd#16, some 0x00ff#16⟩,
        .insertOrAssign ⟨.inPort, 9#32, some 0#32⟩]
    40 ≤ Limits.small.of .oxmFields ∧ ∃ bs, Record.octets (ofSteps steps) = .ok bs
      ∧ Record.ofOctetsWithin .small bs = .ok (ofSteps steps) := by
  intro steps
  have hlimits : 40 ≤ Limits.small.of .oxmFields := by decide
  obtain ⟨bs, hwrites, -, -, -, -, hreads, -⟩ := roundTrips_run steps
  exact ⟨hlimits, bs, hwrites, hreads .small hlimits⟩

end Match

end OpenFlow
