import OpenFlow.Proofs.RoundTrip.TableId

set_option autoImplicit false

/-! # Features of a table are read back

The length of a property does not cover the padding after it, so a property is cut out by its length
and the padding is stepped over on its own. What is read back from a list of properties is the list
itself, as long as the headers of ids are sound (`TableProperty.roundTrips_paddingExcluded`); a
property whose length just fits into its header takes up more octets than the header can tell. -/

namespace OpenFlow

theorem TablePropertyKind.code_lt (k : TablePropertyKind) : k.code < 65536 := by
  rcases k with k | miss
  · cases k <;> decide
  · cases miss <;> decide

namespace TableProperty

/-- How many ids a property lists. -/
def idCount : TableProperty → Nat
  | idList _ ids => ids.length
  | experimenter .. => 0

/-- The length of a property bounds those of its ids, so its own length field stands for all. -/
instance : Composite TableProperty where
  lengthFields p := [p.declaredLength]
  collections p := [(.propertyIds, p.idCount)]

/-- The headers of all ids tell the forms that the ids have. -/
def SoundHeaders : TableProperty → Prop
  | idList kind ids => ∀ id ∈ ids, kind.sort.SoundHeader id
  | experimenter .. => True

instance : (p : TableProperty) → Decidable p.SoundHeaders
  | idList kind ids => inferInstanceAs (Decidable (∀ id ∈ ids, kind.sort.SoundHeader id))
  | experimenter .. => instDecidableTrue

/-! ## Writing -/

/-- The octets after the header, without the padding, where no length overflows. -/
def bodyOctets : TableProperty → Octets
  | idList kind ids => ids.flatMap kind.sort.octets
  | experimenter _ number expType data =>
    bigEndian 4 number.toNat ++ bigEndian 4 expType.toNat ++ data

/-- The octets of a property, where no length overflows. -/
def octets (p : TableProperty) : Octets :=
  bigEndian 2 p.kind.code ++ bigEndian 2 p.declaredLength ++ p.bodyOctets
    ++ padding p.declaredLength

theorem declaredLength_eq (p : TableProperty) :
    p.declaredLength = headerLength + p.bodyOctets.length := by
  cases p with
  | idList kind ids =>
    rw [bodyOctets, Sequence.length_flatMap fun id _ => kind.sort.length_octets id]
    rfl
  | experimenter miss number expType data =>
    simp [declaredLength, bodyOctets, ← Nat.add_assoc]

@[simp] theorem length_octets (p : TableProperty) : p.octets.length = p.length := by
  rw [octets, List.length_append, Header.length_headed p.kind.code p.declaredLength_eq, padding,
    length_zeros, length, padded]

theorem octets_ne_nil (p : TableProperty) : p.octets ≠ [] :=
  List.append_ne_nil_of_left_ne_nil (Header.headed_ne_nil _ _ _) _

/-- No id is longer than the property that lists it. -/
theorem length_id_le {kind : IdListKind} {ids : List kind.sort.Id}
    (hlength : (idList kind ids).declaredLength ≤ 0xffff) {id : kind.sort.Id} (hid : id ∈ ids) :
    Record.length id ≤ 0xffff := by
  have hle : Record.length id ≤ Sequence.length ids := Sequence.le_length_of_mem hid
  have hall : headerLength + Sequence.length ids ≤ 0xffff := hlength
  omega

/-- The ids of a property are read back up to the end of its body. -/
theorem carriesAlone_ids {limits : Limits} {kind : IdListKind} {ids : List kind.sort.Id}
    (hlength : (idList kind ids).declaredLength ≤ 0xffff)
    (hsound : (idList kind ids).SoundHeaders) (hcount : ids.length ≤ limits.of .propertyIds) :
    CarriesAlone limits (idList kind ids).bodyOctets ids := by
  have hbound : ids.length ≤ limits.of (Entry.resource kind.sort.Id) := by
    -- one limit bounds ids of every sort
    cases kind <;> exact hcount
  exact Sequence.carriesAlone
    (fun id hid => kind.sort.carries limits (length_id_le hlength hid) (hsound id hid))
    (fun id _ => kind.sort.octets_ne_nil id) hbound

theorem writes_body {p : TableProperty} (hlength : p.declaredLength ≤ 0xffff) :
    p.body.Writes p.bodyOctets := by
  cases p with
  | idList kind ids =>
    exact Encoding.writes_concat fun id hid => kind.sort.writes_encode (length_id_le hlength hid)
  | experimenter miss number expType data => exact Encoding.writes_ofOctets _

/-- A property is written as it is, whether the headers of its ids are sound or not. -/
theorem writes_encode {p : TableProperty} (hlength : p.declaredLength ≤ 0xffff) :
    p.encode.Writes p.octets :=
  ((Encoding.writes_header .tableProperty p.kind.code hlength).append (writes_body hlength)).append
    (Encoding.writes_ofOctets (padding p.declaredLength))

/-! ## Reading back -/

/-- The data of an experimenter's property takes up all that is left of it. -/
theorem reads_experimenterLayout (h : Header) (miss : Bool) (number expType : UInt32)
    (data : Octets) :
    ((experimenterLayout miss).body h).ReadsBefore []
      (experimenter miss number expType data).bodyOctets
      (experimenter miss number expType data) := by
  have hdata := (Decoder.readsBefore_remainder data).map (experimenter miss number expType)
  rw [bodyOctets, List.append_assoc]
  refine (Decoder.reads_u32 number).bindBefore ?_
  exact (Decoder.reads_u32 expType).bindBefore hdata

/-- A decoder of one layout reads the properties of that layout. -/
theorem reads_decodeAs {limits : Limits} {p : TableProperty} (hlength : p.declaredLength ≤ 0xffff)
    (hsound : p.SoundHeaders) (hcount : p.idCount ≤ limits.of .propertyIds) :
    (decodeAs limits p.kind).Reads p.octets p := by
  have hcode := p.kind.code_lt
  have hlt : p.declaredLength < 65536 := Nat.lt_succ_of_le hlength
  have hsize := p.declaredLength_eq
  cases p with
  | idList kind ids =>
    have hids := (carriesAlone_ids hlength hsound hcount).reads
    exact Decoder.reads_elementPadded hcode hlt hsize
      (decide_eq_true (Nat.le_add_right headerLength _)) (hids.map (idList kind))
  | experimenter miss number expType data =>
    -- the flavour is told by a second look at the header
    refine Decoder.reads_expect_bind (padding _) rfl hcode hlt hsize ?_
    rw [Header.code_ofNats _ hcode, TablePropertyKind.ofCode?_code]
    exact Decoder.reads_elementPadded hcode hlt hsize
      (decide_eq_true (Nat.le_add_right (headerLength + 8) _))
      (reads_experimenterLayout _ miss number expType data)

/-- The decoder of all kinds reads a property back from its octets. -/
theorem reads_decode {limits : Limits} {p : TableProperty} (hlength : p.declaredLength ≤ 0xffff)
    (hsound : p.SoundHeaders) (hcount : p.idCount ≤ limits.of .propertyIds) :
    (decode limits).Reads p.octets p := by
  refine Decoder.reads_expect_bind (padding _) rfl p.kind.code_lt (Nat.lt_succ_of_le hlength)
    p.declaredLength_eq ?_
  simp only [Header.code_ofNats _ p.kind.code_lt, TablePropertyKind.ofCode?_code]
  exact reads_decodeAs hlength hsound hcount

theorem carries {limits : Limits} {p : TableProperty} (hlength : p.declaredLength ≤ 0xffff)
    (hsound : p.SoundHeaders) (hcount : p.idCount ≤ limits.of .propertyIds) :
    Carries limits p.octets p :=
  ⟨writes_encode hlength, p.length_octets, reads_decode hlength hsound hcount⟩

/-- What is written of the features of a table is read back, if every declared length fits, the
    limits admit every list, and the headers of ids are sound. -/
theorem roundTrips_paddingExcluded {limits : Limits} {ps : List TableProperty}
    (hsound : ∀ p ∈ ps, p.SoundHeaders) (hfit : LengthsFit ps) (hlimits : limits.Admits ps) :
    RoundTrips limits ps := by
  have hcarries (p : TableProperty) (hp : p ∈ ps) : Carries limits p.octets p := by
    have hlength : p.declaredLength ≤ 0xffff := hfit.of_mem hp p.declaredLength List.mem_cons_self
    have hcount : p.idCount ≤ limits.of .propertyIds :=
      hlimits.of_mem hp (.propertyIds, p.idCount) List.mem_cons_self
    exact carries hlength (hsound p hp) hcount
  exact (Sequence.carriesAlone hcarries (fun p _ => p.octets_ne_nil) hlimits.length_le).roundTrips

/-- A property whose declared length is the greatest there is, and takes up an octet more than its
    header can tell. -/
theorem roundTrips_longest_experimenter :
    let ps : List TableProperty :=
      [.experimenter true 1 2 (zeros 65523),
        .idList .applyActions [.standard 0xfffe, .experimenter 7 [1, 2, 3]],
        .idList .matching [.experimenter ⟨0xffff0204⟩ 5, .basic ⟨0x80000b02⟩]]
    (∀ p ∈ ps, p.SoundHeaders) ∧ LengthsFit ps ∧ Limits.small.Admits ps ∧ RoundTrips .small ps := by
  intro ps
  have hsound : ∀ p ∈ ps, p.SoundHeaders := by decide
  have hlimits : Limits.small.Admits ps := by decide
  have hlong : LengthsFit (experimenter true 1 2 (zeros 65523)) := by
    intro n hn
    rw [List.mem_singleton.1 hn, declaredLength, length_zeros]
    decide
  have hfit : LengthsFit ps := lengthsFit_cons.2 ⟨hlong, by decide⟩
  exact ⟨hsound, hfit, hlimits, roundTrips_paddingExcluded hsound hfit hlimits⟩

end TableProperty

end OpenFlow
