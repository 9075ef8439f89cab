import OpenFlow.Bucket
import OpenFlow.Proofs.RoundTrip.Action

set_option autoImplicit false

/-! # Buckets are read back

A bucket opens with its length, which has no kind before it, and whatever comes after its numbers is
its actions (`Bucket.carries`). -/

namespace OpenFlow.Bucket

instance : Composite Bucket where
  lengthFields b := b.length :: Composite.lengthFields b.actions
  collections b := Composite.collections b.actions

theorem length_le_of_fit {b : Bucket} (h : LengthsFit b) : b.length ≤ 0xffff :=
  h b.length List.mem_cons_self

/-! ## Writing -/

/-- The octets after the length. -/
def body (b : Bucket) : Octets :=
  bigEndian 2 b.weight.toNat ++ bigEndian 4 b.watchPort.toNat ++ bigEndian 4 b.watchGroup.toNat
    ++ zeros 4 ++ b.actions.flatMap Action.octets

/-- The octets of a bucket, where its length does not overflow. -/
def octets (b : Bucket) : Octets := bigEndian 2 b.length ++ b.body

theorem writes_encode {b : Bucket} (h : b.length ≤ 0xffff) : b.encode.Writes b.octets := by
  have hactions : (Sequence.encode b.actions).Writes (b.actions.flatMap Action.octets) :=
    Encoding.writes_concat fun a _ => a.writes_encode
  have hwrites := ((Encoding.writes_lengthField .bucket h).append
    (Encoding.writes_ofOctets (bigEndian 2 b.weight.toNat ++ bigEndian 4 b.watchPort.toNat
      ++ bigEndian 4 b.watchGroup.toNat ++ zeros 4))).append hactions
  rw [octets, body, ← List.append_assoc]
  exact hwrites

@[simp] theorem length_octets (b : Bucket) : b.octets.length = b.length := by
  have hactions : (b.actions.flatMap Action.octets).length = Sequence.length b.actions :=
    Sequence.length_flatMap fun a _ => a.length_octets
  simp [octets, body, length, headerLength, hactions, ← Nat.add_assoc]

theorem octets_ne_nil (b : Bucket) : b.octets ≠ [] := by
  apply List.length_pos_iff.1
  rw [length_octets, length, headerLength]
  omega

/-! ## Reading back -/

theorem reads_decode {limits : Limits} {b : Bucket} (hlength : b.length ≤ 0xffff)
    (hcount : b.actions.length ≤ limits.of .actions) : (decode limits).Reads b.octets b := by
  have hlt : b.octets.length < 65536 := Nat.lt_succ_of_le (b.length_octets ▸ hlength)
  have hleast : headerLength ≤ b.octets.length := by
    rw [length_octets]
    exact Nat.le_add_right headerLength _
  -- the length stands first
  have hopen : b.octets = [] ++ (bigEndian 2 b.octets.length ++ b.body) := by
    rw [List.nil_append, length_octets]
    rfl
  unfold decode
  refine Decoder.reads_measured hopen rfl hlt hleast ?_
  rw [octets, body, List.append_assoc, List.append_assoc, List.append_assoc, ← List.append_assoc]
  refine (Decoder.reads_skip (length_bigEndian 2 b.length)).bindBefore ?_
  refine (Decoder.reads_u16 b.weight).bindBefore ?_
  refine (Decoder.reads_u32 b.watchPort).bindBefore ?_
  refine (Decoder.reads_u32 b.watchGroup).bindBefore ?_
  refine Decoder.ReadsBefore.after_zeros 4 ?_
  exact (Action.carriesAlone limits b.actions hcount).reads.map
    (Bucket.mk b.weight b.watchPort b.watchGroup)

theorem carries {limits : Limits} {b : Bucket} (hfit : LengthsFit b) (hlimits : limits.Admits b) :
    Carries limits b.octets b := by
  have hlength : b.length ≤ 0xffff := length_le_of_fit hfit
  have hactions : limits.Admits b.actions := hlimits
  exact ⟨writes_encode hlength, b.length_octets, reads_decode hlength hactions.length_le⟩

/-- A sequence of buckets is read back, if their lengths fit and there are not too many of them or
    of the actions in any. -/
theorem carriesAlone {limits : Limits} {bs : List Bucket} (hfit : LengthsFit bs)
    (hlimits : limits.Admits bs) : CarriesAlone limits (bs.flatMap octets) bs :=
  Sequence.carriesAlone (fun _ hb => carries (hfit.of_mem hb) (hlimits.of_mem hb))
    (fun b _ => b.octets_ne_nil) hlimits.length_le

end OpenFlow.Bucket
