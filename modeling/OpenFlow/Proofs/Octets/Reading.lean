import OpenFlow.Octets.Decoder

set_option autoImplicit false

/-! # What a decoder reads

`d.Reads bs a` says that the decoder `d` reads the value `a` from the octets `bs`, stops right after
them, and does so whatever octets come next. A decoder that reads up to the end, or that looks
ahead, does care about what comes next; `d.ReadsBefore tail bs a` says the same of one continuation
`tail`. Both are kept by sequencing, so a structure that is written part by part is read part by
part. -/

namespace OpenFlow

/-! ## Words -/

theorem toNat_bigEndian_of_lt (width n : Nat) (h : n < Nat.pow 256 width) :
    (bigEndian width n).toNat = n := by
  rw [toNat_bigEndian, Nat.mod_eq_of_lt h]

/-- Any octets are a number of their width. -/
theorem bigEndian_toNat_mod {bs : Octets} {width : Nat} (h : bs.length = width) :
    bigEndian width (bs.toNat % Nat.pow 256 width) = bs := by
  subst h
  rw [Nat.mod_eq_of_lt (Octets.toNat_lt bs), bigEndian_toNat]

namespace Decoder

variable {α β : Type}

/-- Before the octets `tail`, `d` reads `a` from `bs` and stops right after `bs`. -/
def ReadsBefore (d : Decoder α) (tail bs : Octets) (a : α) : Prop :=
  ∀ pos, d.run ⟨pos, bs ++ tail⟩ = (.ok a, ⟨pos + bs.length, tail⟩)

/-- Whatever comes next, `d` reads `a` from `bs` and stops right after `bs`. -/
def Reads (d : Decoder α) (bs : Octets) (a : α) : Prop := ∀ tail, d.ReadsBefore tail bs a

/-! ## Sequencing -/

theorem run_bind_ok {d : Decoder α} {f : α → Decoder β} {c c' : Cursor} {a : α}
    (h : d.run c = (.ok a, c')) : (d >>= f).run c = (f a).run c' := by
  rw [run_bind, h]

theorem run_bind_error {d : Decoder α} {f : α → Decoder β} {c c' : Cursor} {e : DecodeError}
    (h : d.run c = (.error e, c')) : (d >>= f).run c = (.error e, c') := by
  rw [run_bind, h]

theorem ReadsBefore.bind {d : Decoder α} {f : α → Decoder β} {tail bs cs : Octets} {a : α} {b : β}
    (hd : d.ReadsBefore (cs ++ tail) bs a) (hf : (f a).ReadsBefore tail cs b) :
    (d >>= f).ReadsBefore tail (bs ++ cs) b := by
  intro pos
  have hfirst : d.run ⟨pos, bs ++ cs ++ tail⟩ = (.ok a, ⟨pos + bs.length, cs ++ tail⟩) := by
    rw [List.append_assoc]
    exact hd pos
  rw [run_bind_ok hfirst, hf, List.length_append, Nat.add_assoc]

/-- A first part that reads nothing, but may look ahead. -/
theorem ReadsBefore.bind_nil {d : Decoder α} {f : α → Decoder β} {tail bs : Octets} {a : α} {b : β}
    (hd : d.ReadsBefore (bs ++ tail) [] a) (hf : (f a).ReadsBefore tail bs b) :
    (d >>= f).ReadsBefore tail bs b :=
  ReadsBefore.bind hd hf

theorem Reads.bind {d : Decoder α} {f : α → Decoder β} {bs cs : Octets} {a : α} {b : β}
    (hd : d.Reads bs a) (hf : (f a).Reads cs b) : (d >>= f).Reads (bs ++ cs) b :=
  fun tail => ReadsBefore.bind (hd (cs ++ tail)) (hf tail)

/-- A decoder that cares about what comes next, after one that does not. -/
theorem Reads.bindBefore {d : Decoder α} {f : α → Decoder β} {tail bs cs : Octets} {a : α} {b : β}
    (hd : d.Reads bs a) (hf : (f a).ReadsBefore tail cs b) :
    (d >>= f).ReadsBefore tail (bs ++ cs) b :=
  ReadsBefore.bind (hd (cs ++ tail)) hf

theorem reads_pure (a : α) : (pure a : Decoder α).Reads [] a := by
  intro tail pos
  rfl

/-- Reads a value and answers what it is mapped to. -/
theorem Reads.map {d : Decoder α} {bs : Octets} {a : α} (f : α → β) (hd : d.Reads bs a) :
    (d >>= fun a => pure (f a)).Reads bs (f a) := by
  have h := hd.bind (f := fun a => pure (f a)) (reads_pure (f a))
  rwa [List.append_nil] at h

theorem ReadsBefore.map {d : Decoder α} {tail bs : Octets} {a : α} (f : α → β)
    (hd : d.ReadsBefore tail bs a) : (d >>= fun a => pure (f a)).ReadsBefore tail bs (f a) := by
  have h : (d >>= fun a => pure (f a)).ReadsBefore tail (bs ++ []) (f a) :=
    ReadsBefore.bind hd (reads_pure (f a) tail)
  rwa [List.append_nil] at h

/-- Only the result, where the octets that are left do not matter. -/
theorem Reads.result {d : Decoder α} {bs : Octets} {a : α} (hd : d.Reads bs a) (pos : Nat)
    (tail : Octets) : (d.run ⟨pos, bs ++ tail⟩).1 = .ok a := by
  rw [hd tail pos]

/-- A decoder that reads octets up to the end leaves none. -/
theorem ReadsBefore.run_all {d : Decoder α} {bs : Octets} {a : α} (hd : d.ReadsBefore [] bs a)
    (pos : Nat) : d.run ⟨pos, bs⟩ = (.ok a, ⟨pos + bs.length, []⟩) := by
  have hrun := hd pos
  rwa [List.append_nil] at hrun

theorem ReadsBefore.run_start {d : Decoder α} {bs : Octets} {a : α} (hd : d.ReadsBefore [] bs a) :
    d.run (.start bs) = (.ok a, ⟨bs.length, []⟩) := by
  rw [Cursor.start, hd.run_all, Nat.zero_add]

theorem ReadsBefore.result {d : Decoder α} {bs : Octets} {a : α} (hd : d.ReadsBefore [] bs a)
    (pos : Nat) : (d.run ⟨pos, bs⟩).1 = .ok a := by
  rw [hd.run_all]

/-! ## Octets and numbers -/

theorem holds_append (pos : Nat) (bs tail : Octets) :
    (Cursor.mk pos (bs ++ tail)).Holds bs.length := by
  simp [Cursor.Holds, Cursor.remaining]

theorem reads_octets (bs : Octets) : (octets bs.length).Reads bs bs := by
  intro tail pos
  have hrun : (octets bs.length).run ⟨pos, bs ++ tail⟩
      = (.ok ((bs ++ tail).take bs.length), ⟨pos + bs.length, (bs ++ tail).drop bs.length⟩) :=
    if_pos (holds_append pos bs tail)
  rw [hrun, List.take_left, List.drop_left]

theorem reads_word (bs : Octets) : (word bs.length).Reads bs bs.toNat :=
  (reads_octets bs).map Octets.toNat

theorem reads_word_bigEndian (width n : Nat) (h : n < Nat.pow 256 width) :
    (word width).Reads (bigEndian width n) n := by
  have hread := reads_word (bigEndian width n)
  rwa [length_bigEndian, toNat_bigEndian_of_lt width n h] at hread

theorem reads_u8 (v : UInt8) : u8.Reads (bigEndian 1 v.toNat) v := by
  have h := (reads_word_bigEndian 1 v.toNat v.toNat_lt).map UInt8.ofNat
  rwa [UInt8.ofNat_toNat] at h

theorem reads_u16 (v : UInt16) : u16.Reads (bigEndian 2 v.toNat) v := by
  have h := (reads_word_bigEndian 2 v.toNat v.toNat_lt).map UInt16.ofNat
  rwa [UInt16.ofNat_toNat] at h

theorem reads_u32 (v : UInt32) : u32.Reads (bigEndian 4 v.toNat) v := by
  have h := (reads_word_bigEndian 4 v.toNat v.toNat_lt).map UInt32.ofNat
  rwa [UInt32.ofNat_toNat] at h

theorem reads_u64 (v : UInt64) : u64.Reads (bigEndian 8 v.toNat) v := by
  have h := (reads_word_bigEndian 8 v.toNat v.toNat_lt).map UInt64.ofNat
  rwa [UInt64.ofNat_toNat] at h

/-- What is stepped over may be anything. -/
theorem reads_skip {n : Nat} {bs : Octets} (h : bs.length = n) : (skip n).Reads bs () := by
  subst h
  exact (reads_octets bs).map fun _ => ()

theorem run_octets_of_le {n : Nat} {c : Cursor} (h : n ≤ c.rest.length) :
    (octets n).run c = (.ok (c.rest.take n), c.advance n) := if_pos h

theorem run_skip_of_le {n : Nat} {c : Cursor} (h : n ≤ c.rest.length) :
    (skip n).run c = (.ok (), c.advance n) := by
  unfold skip
  rw [run_bind_ok (run_octets_of_le h)]
  rfl

/-! ## Reads of one width -/

/-- `d` reads `n` octets, whatever they are, wherever there are as many. -/
def HasWidth (d : Decoder α) (n : Nat) : Prop :=
  ∀ c : Cursor, n ≤ c.rest.length → ∃ a, d.run c = (.ok a, c.advance n)

theorem hasWidth_pure (a : α) : (pure a : Decoder α).HasWidth 0 := by
  intro c _
  exact ⟨a, by rw [run_pure, Cursor.advance_zero]⟩

theorem HasWidth.bind {d : Decoder α} {f : α → Decoder β} {m n : Nat} (hd : d.HasWidth m)
    (hf : ∀ a, (f a).HasWidth n) : (d >>= f).HasWidth (m + n) := by
  intro c hc
  obtain ⟨a, hfirst⟩ := hd c (Nat.le_of_add_right_le hc)
  have hleft : n ≤ (c.advance m).rest.length := by
    rw [Cursor.rest_advance, List.length_drop]
    omega
  obtain ⟨b, hsecond⟩ := hf a (c.advance m) hleft
  exact ⟨b, by rw [run_bind_ok hfirst, hsecond, Cursor.advance_advance]⟩

theorem HasWidth.map {d : Decoder α} {n : Nat} (hd : d.HasWidth n) {g : α → β} :
    (d >>= fun a => pure (g a)).HasWidth n :=
  hd.bind fun a => hasWidth_pure (g a)

theorem hasWidth_octets (n : Nat) : (octets n).HasWidth n := fun _ hc => ⟨_, run_octets_of_le hc⟩

theorem hasWidth_word (width : Nat) : (word width).HasWidth width := (hasWidth_octets width).map

theorem hasWidth_u8 : u8.HasWidth 1 := (hasWidth_word 1).map

theorem hasWidth_u16 : u16.HasWidth 2 := (hasWidth_word 2).map

theorem hasWidth_u32 : u32.HasWidth 4 := (hasWidth_word 4).map

theorem hasWidth_u64 : u64.HasWidth 8 := (hasWidth_word 8).map

theorem hasWidth_skip (n : Nat) : (skip n).HasWidth n := (hasWidth_octets n).map

/-! ## Filler -/

/-- Zeros that come first are stepped over. -/
theorem ReadsBefore.after_zeros {d : Decoder α} {tail bs : Octets} {a : α} (n : Nat)
    (hd : d.ReadsBefore tail bs a) :
    (skip n >>= fun _ => d).ReadsBefore tail (zeros n ++ bs) a :=
  (reads_skip (length_zeros n)).bindBefore (f := fun _ => d) hd

theorem Reads.after_zeros {d : Decoder α} {bs : Octets} {a : α} (n : Nat) (hd : d.Reads bs a) :
    (skip n >>= fun _ => d).Reads (zeros n ++ bs) a :=
  fun tail => (hd tail).after_zeros n

/-! ## Looking ahead, to the end, and within bounds -/

theorem readsBefore_remainder (bs : Octets) : remainder.ReadsBefore [] bs bs := by
  intro pos
  have hrun : remainder.run ⟨pos, bs ++ []⟩
      = (.ok (bs ++ []), ⟨pos + (bs ++ []).length, []⟩) := rfl
  rw [hrun, List.append_nil]

theorem run_ahead (d : Decoder α) (c : Cursor) : (ahead d).run c = ((d.run c).1, c) := rfl

theorem readsBefore_ahead {d : Decoder α} {bs rest : Octets} {a : α}
    (hd : d.ReadsBefore rest bs a) : (ahead d).ReadsBefore (bs ++ rest) [] a := by
  intro pos
  rw [List.nil_append, run_ahead, hd pos]
  rfl

theorem run_within_ok {n : Nat} {d : Decoder α} {c c' : Cursor} {bs : Octets}
    (h : (octets n).run c = (.ok bs, c')) : (within n d).run c = ((d.run (.start bs)).1, c') :=
  run_bind_ok h

/-- A confined decoder sees its octets and nothing else, so only its result on them counts. -/
theorem reads_within {d : Decoder α} {bs : Octets} {a : α} {n : Nat} (hn : bs.length = n)
    (hd : (d.run (.start bs)).1 = .ok a) : (within n d).Reads bs a := by
  subst hn
  intro tail pos
  rw [run_within_ok (reads_octets bs tail pos), hd]

end Decoder

end OpenFlow
