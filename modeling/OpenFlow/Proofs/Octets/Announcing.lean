import OpenFlow.Octets.Writer
import OpenFlow.Proofs.Octets.Writing

set_option autoImplicit false

/-! # The lengths in an encoding

An encoding overflows at the first of its lengths that sixteen bits do not hold, and otherwise has
as many octets as its parts. `e.Announces lengths size` says both at once, whether or not the
lengths fit, so that it can be put together part by part along an encoder. -/

namespace OpenFlow

/-- The first of some lengths, each with what it is the length of, that sixteen bits do not
    hold. -/
def firstOverflow? (lengths : List (Element × Nat)) : Option LengthOverflow :=
  (lengths.find? fun l => decide (0xffff < l.2)).map fun l => ⟨l.1, l.2⟩

@[simp] theorem firstOverflow?_nil : firstOverflow? [] = none := rfl

theorem firstOverflow?_append (as bs : List (Element × Nat)) :
    firstOverflow? (as ++ bs) = (firstOverflow? as).or (firstOverflow? bs) := by
  unfold firstOverflow?
  rw [List.find?_append, Option.map_or]

theorem firstOverflow?_eq_none_iff {lengths : List (Element × Nat)} :
    firstOverflow? lengths = none ↔ ∀ l ∈ lengths, l.2 ≤ 0xffff := by
  simp [firstOverflow?]

theorem firstOverflow?_singleton (element : Element) (length : Nat) :
    firstOverflow? [(element, length)]
      = if length ≤ 0xffff then none else some ⟨element, length⟩ := by
  by_cases h : length ≤ 0xffff
  · simp [firstOverflow?, h]
  · simp [firstOverflow?, h, Nat.lt_of_not_le h]

/-- A length that is the greatest of all decides for the others. -/
theorem firstOverflow?_cons_of_le (element : Element) {length : Nat}
    {lengths : List (Element × Nat)} (h : ∀ l ∈ lengths, l.2 ≤ length) :
    firstOverflow? ((element, length) :: lengths)
      = if length ≤ 0xffff then none else some ⟨element, length⟩ := by
  rw [← List.singleton_append, firstOverflow?_append, firstOverflow?_singleton]
  by_cases hfits : length ≤ 0xffff
  · rw [if_pos hfits, Option.none_or]
    exact firstOverflow?_eq_none_iff.2 fun l hl => Nat.le_trans (h l hl) hfits
  · rw [if_neg hfits, Option.some_or]

namespace Encoding

variable {α : Type}

/-- The encoding overflows at the first of the lengths that does not fit; if all do, it has `size`
    octets. -/
structure Announces (e : Encoding) (lengths : List (Element × Nat)) (size : Nat) : Prop where
  overflow_eq : e.overflow = firstOverflow? lengths
  length_eq : e.overflow = none → e.octets.length = size

/-! ## Part by part -/

/-- What comes to its end announces whatever fits. -/
theorem Writes.announces {e : Encoding} {bs : Octets} {lengths : List (Element × Nat)}
    (h : e.Writes bs) (hfit : ∀ l ∈ lengths, l.2 ≤ 0xffff) : e.Announces lengths bs.length := by
  rw [show e = ofOctets bs from h]
  exact ⟨(firstOverflow?_eq_none_iff.2 hfit).symm, fun _ => rfl⟩

theorem announces_ofOctets (bs : Octets) : (ofOctets bs).Announces [] bs.length :=
  (writes_ofOctets bs).announces (List.forall_mem_nil _)

/-- Octets that are written only if a length fits announce that length. -/
theorem announces_if_fits (element : Element) (length : Nat) (bs : Octets) :
    (if length ≤ 0xffff then ofOctets bs else ⟨[], some ⟨element, length⟩⟩ : Encoding).Announces
      [(element, length)] bs.length := by
  have hfirst := firstOverflow?_singleton element length
  by_cases h : length ≤ 0xffff
  · rw [if_pos h] at hfirst ⊢
    exact ⟨hfirst.symm, fun _ => rfl⟩
  · rw [if_neg h] at hfirst ⊢
    exact ⟨hfirst.symm, fun hnone => nomatch hnone⟩

theorem announces_header (element : Element) (code length : Nat) :
    (header element code length).Announces [(element, length)] 4 :=
  announces_if_fits element length (bigEndian 2 code ++ bigEndian 2 length)

theorem announces_lengthField (element : Element) (length : Nat) :
    (lengthField element length).Announces [(element, length)] 2 :=
  announces_if_fits element length (bigEndian 2 length)

theorem Announces.append {a b : Encoding} {as bs : List (Element × Nat)} {m n : Nat}
    (ha : a.Announces as m) (hb : b.Announces bs n) : (a ++ b).Announces (as ++ bs) (m + n) := by
  obtain ⟨hfirst, hlength⟩ := ha
  obtain ⟨hfirst', hlength'⟩ := hb
  obtain ⟨octets, _ | overflow⟩ := a
  · refine ⟨?_, fun hnone => ?_⟩
    · rw [firstOverflow?_append, ← hfirst, ← hfirst']
      rfl
    · show (octets ++ b.octets).length = m + n
      rw [List.length_append, hlength rfl, hlength' hnone]
  · refine ⟨?_, fun hnone => nomatch hnone⟩
    rw [firstOverflow?_append, ← hfirst]
    rfl

theorem announces_concat {encode : α → Encoding} {lengths : α → List (Element × Nat)}
    {size : α → Nat} {xs : List α} (h : ∀ x ∈ xs, (encode x).Announces (lengths x) (size x)) :
    (concat encode xs).Announces (xs.flatMap lengths) (xs.foldr (size · + ·) 0) := by
  induction xs with
  | nil => exact announces_ofOctets []
  | cons x xs ih =>
    obtain ⟨hx, hxs⟩ := List.forall_mem_cons.1 h
    exact hx.append (ih hxs)

/-! ## In a writer -/

theorem Announces.write_eq_error_iff {e : Encoding} {lengths : List (Element × Nat)} {size : Nat}
    (h : e.Announces lengths size) {w : Writer} {failure : LengthOverflow} :
    (w.write e).1 = .error failure ↔ firstOverflow? lengths = some failure := by
  rw [← h.overflow_eq]
  obtain ⟨octets, _ | overflow⟩ := e <;> simp [Writer.write]

theorem Announces.write_eq_ok_iff {e : Encoding} {lengths : List (Element × Nat)} {size : Nat}
    (h : e.Announces lengths size) {w : Writer} :
    (w.write e).1 = .ok () ↔ ∀ l ∈ lengths, l.2 ≤ 0xffff := by
  rw [← firstOverflow?_eq_none_iff, ← h.overflow_eq]
  obtain ⟨octets, _ | overflow⟩ := e <;> simp [Writer.write]

/-- Where all lengths fit, the same octets are added to any writer, and as many as announced. -/
theorem Announces.exists_octets {e : Encoding} {lengths : List (Element × Nat)} {size : Nat}
    (h : e.Announces lengths size) (hfit : ∀ l ∈ lengths, l.2 ≤ 0xffff) :
    ∃ bs : Octets, bs.length = size ∧ ∀ w : Writer, w.write e = (.ok (), ⟨w.octets ++ bs⟩) := by
  have hnone : e.overflow = none := h.overflow_eq.trans (firstOverflow?_eq_none_iff.2 hfit)
  refine ⟨e.octets, h.length_eq hnone, fun w => ?_⟩
  rw [Writer.write, hnone]
  rfl

end Encoding

end OpenFlow
