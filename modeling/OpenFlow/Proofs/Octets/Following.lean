import OpenFlow.Proofs.Octets.Recognizing
import OpenFlow.Proofs.Octets.Template

set_option autoImplicit false

/-! # Templates that decoders follow

Whatever octets a decoder accepts, they fit a template that depends on the value alone, and the
decoder reads the same value from all other octets that fit it: that is `Decoder.Follows`. What
comes next may be anything (`anywhere`), or nothing if the decoder reads up to the end (`atEnd`).
Sequencing puts templates in a row, so the template of a record is found by going along its
decoder. -/

namespace OpenFlow.Decoder

open Template

variable {α β : Type}

/-- What was read may be followed by any number of octets. -/
def anywhere (_ : Nat) : Prop := True

/-- What was read is followed by nothing. -/
def atEnd (n : Nat) : Prop := n = 0

/-- What `d` reads is read from octets that fit a template, and `S` relates the value to it. The
    same is read from all octets that fit, with as many octets after them as `room` allows. -/
def Follows (d : Decoder α) (room : Nat → Prop) (S : α → Template → Prop) : Prop :=
  ∀ (c c' : Cursor) (a : α), d.run c = (.ok a, c') →
    ∃ (t : Template) (bs : Octets), S a t ∧ t.Fits bs ∧ c.rest = bs ++ c'.rest ∧ room c'.remaining
      ∧ ∀ bs' tail : Octets, t.Fits bs' → room tail.length → d.ReadsBefore tail bs' a

theorem Follows.weaken {d : Decoder α} {room : Nat → Prop} {S S' : α → Template → Prop}
    (hd : d.Follows room S) (h : ∀ a t, S a t → S' a t) : d.Follows room S' := by
  intro c c' a hrun
  obtain ⟨t, bs, hS, hrest⟩ := hd _ _ _ hrun
  exact ⟨t, bs, h a t hS, hrest⟩

/-! ## Octets that all count -/

/-- A decoder that reads its values from their own octets. -/
theorem follows_of_reads {d : Decoder α} {octets : α → Octets} {P : α → Prop}
    (hinv : ∀ (c c' : Cursor) (a : α), d.run c = (.ok a, c') →
      c.rest = octets a ++ c'.rest ∧ P a)
    (hreads : ∀ a, P a → d.Reads (octets a) a) :
    d.Follows anywhere fun a t => t = exact (octets a) ∧ P a := by
  intro c c' a hrun
  obtain ⟨hrest, hP⟩ := hinv c c' a hrun
  refine ⟨exact (octets a), octets a, ⟨rfl, hP⟩, fits_exact_iff.2 rfl, hrest, trivial, ?_⟩
  intro bs' tail hfits _
  rw [fits_exact_iff.1 hfits]
  exact hreads a hP tail

theorem run_octets_ok {n : Nat} {c c' : Cursor} {bs : Octets}
    (h : (octets n).run c = (.ok bs, c')) : bs.length = n ∧ c.rest = bs ++ c'.rest := by
  by_cases hn : n ≤ c.rest.length
  · have hrun : (octets n).run c = (.ok (c.rest.take n), c.advance n) := if_pos hn
    rw [hrun] at h
    obtain ⟨hbs, rfl⟩ := Prod.mk.inj h
    rw [← Except.ok.inj hbs, List.length_take, Nat.min_eq_left hn]
    exact ⟨rfl, (List.take_append_drop n c.rest).symm⟩
  · have hrun : (octets n).run c = (.error (.endOfInput n c.remaining), c) := if_neg hn
    rw [hrun] at h
    cases (Prod.mk.inj h).1

theorem run_word_ok {width n : Nat} {c c' : Cursor} (h : (word width).run c = (.ok n, c')) :
    c.rest = bigEndian width n ++ c'.rest ∧ n < Nat.pow 256 width := by
  obtain ⟨bs, hbs, rfl⟩ := run_bind_pure_iff.1 h
  obtain ⟨rfl, hrest⟩ := run_octets_ok hbs
  rw [bigEndian_toNat]
  exact ⟨hrest, bs.toNat_lt⟩

/-- A number of a type that holds all numbers of a width. -/
theorem follows_number {width : Nat} {ofNat : Nat → α} {toNat : α → Nat}
    (hto : ∀ n, n < Nat.pow 256 width → toNat (ofNat n) = n)
    (hreads : ∀ v, (word width >>= fun n => pure (ofNat n)).Reads
      (bigEndian width (toNat v)) v) :
    (word width >>= fun n => pure (ofNat n)).Follows anywhere
      fun v t => t = exact (bigEndian width (toNat v)) := by
  refine (follows_of_reads (P := fun _ => True) ?_ fun v _ => hreads v).weaken fun _ _ h => h.1
  intro c c' v hrun
  obtain ⟨n, hn, rfl⟩ := run_bind_pure_iff.1 hrun
  obtain ⟨hrest, hlt⟩ := run_word_ok hn
  rw [hto n hlt]
  exact ⟨hrest, trivial⟩

theorem follows_u8 : u8.Follows anywhere fun v t => t = exact (bigEndian 1 v.toNat) :=
  follows_number (fun _ hn => UInt8.toNat_ofNat_of_lt' hn) reads_u8

theorem follows_u16 : u16.Follows anywhere fun v t => t = exact (bigEndian 2 v.toNat) :=
  follows_number (fun _ hn => UInt16.toNat_ofNat_of_lt' hn) reads_u16

theorem follows_u32 : u32.Follows anywhere fun v t => t = exact (bigEndian 4 v.toNat) :=
  follows_number (fun _ hn => UInt32.toNat_ofNat_of_lt' hn) reads_u32

theorem follows_u64 : u64.Follows anywhere fun v t => t = exact (bigEndian 8 v.toNat) :=
  follows_number (fun _ hn => UInt64.toNat_ofNat_of_lt' hn) reads_u64

theorem follows_remainder : remainder.Follows atEnd fun bs t => t = exact bs := by
  intro c c' bs hrun
  have hremainder : remainder.run c = (.ok c.rest, ⟨c.pos + c.remaining, []⟩) := rfl
  rw [hremainder] at hrun
  obtain ⟨hbs, rfl⟩ := Prod.mk.inj hrun
  obtain rfl := Except.ok.inj hbs
  refine ⟨exact c.rest, c.rest, rfl, fits_exact_iff.2 rfl, (List.append_nil _).symm, rfl, ?_⟩
  intro bs' tail hfits htail
  rw [fits_exact_iff.1 hfits, List.length_eq_zero_iff.1 htail]
  exact readsBefore_remainder c.rest

/-! ## Octets that do not count -/

theorem follows_skip (n : Nat) : (skip n).Follows anywhere fun _ t => t = blanks n := by
  intro c c' a hrun
  obtain ⟨bs, hbs, -⟩ := run_bind_pure_iff.1 hrun
  obtain ⟨hlength, hrest⟩ := run_octets_ok hbs
  refine ⟨blanks n, bs, rfl, fits_blanks_iff.2 hlength, hrest, trivial, ?_⟩
  intro bs' tail hfits _
  exact reads_skip (fits_blanks_iff.1 hfits) tail

theorem follows_pure (a : α) : (pure a : Decoder α).Follows anywhere fun b t => b = a ∧ t = [] := by
  intro c c' b hrun
  obtain ⟨hb, rfl⟩ := Prod.mk.inj hrun
  refine ⟨[], [], ⟨(Except.ok.inj hb).symm, rfl⟩, fits_nil_iff.2 rfl, rfl, trivial, ?_⟩
  intro bs' tail hfits _
  rw [fits_nil_iff.1 hfits, ← Except.ok.inj hb]
  exact reads_pure a tail

/-! ## Sequencing -/

theorem exists_of_run_bind_ok {d : Decoder α} {f : α → Decoder β} {c c' : Cursor} {b : β}
    (h : (d >>= f).run c = (.ok b, c')) :
    ∃ a c₁, d.run c = (.ok a, c₁) ∧ (f a).run c₁ = (.ok b, c') := by
  rcases hfirst : d.run c with ⟨e | a, c₁⟩
  · rw [run_bind_error hfirst] at h
    cases (Prod.mk.inj h).1
  · rw [run_bind_ok hfirst] at h
    exact ⟨a, c₁, rfl, h⟩

/-- The template of the second part comes after that of the first. -/
theorem Follows.bind {d : Decoder α} {f : α → Decoder β} {room : Nat → Prop}
    {R : α → Template → Prop} {S : β → Template → Prop} (hd : d.Follows anywhere R)
    (hf : ∀ a t, R a t → (f a).Follows room fun b u => S b (t ++ u)) :
    (d >>= f).Follows room S := by
  intro c c' b hrun
  obtain ⟨a, c₁, hfirst, hsecond⟩ := exists_of_run_bind_ok hrun
  obtain ⟨t, bs, hR, hbs, hrest, -, hreads⟩ := hd _ _ _ hfirst
  obtain ⟨u, cs, hS, hcs, hrest', hroom, hreads'⟩ := hf a t hR _ _ _ hsecond
  refine ⟨t ++ u, bs ++ cs, hS, hbs.append hcs, ?_, hroom, ?_⟩
  · rw [hrest, hrest', List.append_assoc]
  · intro bs' tail hfits htail
    obtain ⟨bs', cs', rfl, hbs', hcs'⟩ := fits_append_iff.1 hfits
    exact (hreads bs' (cs' ++ tail) hbs' trivial).bind (hreads' cs' tail hcs' htail)

/-- A value is read, and then accepted as another or refused. -/
theorem Follows.accept {d : Decoder α} {f : α → Decoder β} {room : Nat → Prop}
    {R : α → Template → Prop} {S : β → Template → Prop} (hd : d.Follows room R)
    (hf : ∀ a t, R a t → (∃ b, f a = pure b ∧ S b t) ∨ ∃ e, f a = fail e) :
    (d >>= f).Follows room S := by
  intro c c' b hrun
  obtain ⟨a, c₁, hfirst, hsecond⟩ := exists_of_run_bind_ok hrun
  obtain ⟨t, bs, hR, hbs, hrest, hroom, hreads⟩ := hd _ _ _ hfirst
  rcases hf a t hR with ⟨b', hpure, hS⟩ | ⟨e, hfail⟩
  · rw [hpure] at hsecond
    obtain ⟨hb, rfl⟩ := Prod.mk.inj hsecond
    obtain rfl := Except.ok.inj hb
    refine ⟨t, bs, hS, hbs, hrest, hroom, ?_⟩
    intro bs' tail hfits htail pos
    rw [run_bind_ok (hreads bs' tail hfits htail pos), hpure, run_pure]
  · rw [hfail] at hsecond
    cases (Prod.mk.inj hsecond).1

/-- Reads a value and answers what it is mapped to. -/
theorem Follows.map {d : Decoder α} {f : α → β} {room : Nat → Prop} {R : α → Template → Prop}
    {S : β → Template → Prop} (hd : d.Follows room R) (hf : ∀ a t, R a t → S (f a) t) :
    (d >>= fun a => pure (f a)).Follows room S :=
  hd.accept fun a t hR => Or.inl ⟨f a, rfl, hf a t hR⟩

/-- Octets are stepped over before the rest is read. -/
theorem Follows.after_skip {d : Decoder β} {room : Nat → Prop} {S : β → Template → Prop} (n : Nat)
    (hd : d.Follows room fun b u => S b (blanks n ++ u)) :
    (skip n >>= fun _ => d).Follows room S := by
  refine (follows_skip n).bind fun _ t ht => ?_
  rw [ht]
  exact hd

theorem follows_ite {p : Prop} [Decidable p] {d d' : Decoder α} {room : Nat → Prop}
    {S : α → Template → Prop} (h : p → d.Follows room S) (h' : ¬ p → d'.Follows room S) :
    (if p then d else d').Follows room S := by
  by_cases hp : p
  · rw [if_pos hp]
    exact h hp
  · rw [if_neg hp]
    exact h' hp

/-- A failure reads nothing. -/
theorem follows_fail_bind {e : DecodeError} {f : α → Decoder β} {room : Nat → Prop}
    {S : β → Template → Prop} : ((fail e : Decoder α) >>= f).Follows room S := by
  intro c c' b hrun
  cases (Prod.mk.inj hrun).1

/-! ## Repetition -/

/-- A decoder whose templates have places takes octets. -/
theorem Follows.consumes {d : Decoder α} {room : Nat → Prop} {S : α → Template → Prop}
    (hd : d.Follows room S) (hpos : ∀ a t, S a t → t ≠ []) : d.Consumes := by
  intro c a c' hrun
  obtain ⟨t, bs, hS, hbs, hrest, -⟩ := hd _ _ _ hrun
  -- the template and the octets it fits are equally long
  have hlength : 0 < bs.length := hbs.length_eq ▸ List.length_pos_iff.2 (hpos a t hS)
  rw [Cursor.remaining, Cursor.remaining, hrest, List.length_append]
  omega

variable {d : Decoder α} {template : α → Template} {P : α → Prop}

/-- The values of a pass are read from what fits their templates in a row. -/
theorem Follows.pass (hd : d.Follows anywhere fun a t => t = template a ∧ P a)
    (hpos : ∀ a, template a ≠ []) {as : List α} {c c' : Cursor} (h : Pass d c as c') :
    ∃ bs, Fits (as.flatMap template) bs ∧ c.rest = bs ++ c'.rest ∧ (∀ a ∈ as, P a)
      ∧ ∀ bs' tail pos, Fits (as.flatMap template) bs' →
        Pass d ⟨pos, bs' ++ tail⟩ as ⟨pos + bs'.length, tail⟩ := by
  induction h with
  | nil c =>
    refine ⟨[], fits_nil_iff.2 rfl, rfl, List.forall_mem_nil _, ?_⟩
    intro bs' tail pos hfits
    rw [fits_nil_iff.1 hfits]
    exact .nil _
  | @cons a as c c₁ c' hrun hlt rest ih =>
    obtain ⟨_, bs, ⟨rfl, hP⟩, hbs, hrest, -, hreads⟩ := hd _ _ _ hrun
    obtain ⟨cs, hcs, hrest', hPs, hpass⟩ := ih
    refine ⟨bs ++ cs, hbs.append hcs, ?_, List.forall_mem_cons.2 ⟨hP, hPs⟩, ?_⟩
    · rw [hrest, hrest', List.append_assoc]
    · intro bs' tail pos hfits
      obtain ⟨bs', cs', rfl, hbs', hcs'⟩ := fits_append_iff.1 hfits
      have hlength : 0 < bs'.length := hbs'.length_eq ▸ List.length_pos_iff.2 (hpos a)
      have htail := hpass cs' tail (pos + bs'.length) hcs'
      rw [List.append_assoc, List.length_append, ← Nat.add_assoc]
      refine .cons (hreads bs' (cs' ++ tail) hbs' trivial pos) ?_ htail
      simp only [Cursor.remaining, List.length_append]
      omega

/-- Values that are read until the octets run out. -/
theorem Follows.many (hd : d.Follows anywhere fun a t => t = template a ∧ P a)
    (hpos : ∀ a, template a ≠ []) (bound : Nat) (overfull : DecodeError) :
    (Decoder.many bound overfull d).Follows atEnd
      fun as t => t = as.flatMap template ∧ ∀ a ∈ as, P a := by
  intro c c' as hrun
  have hconsumes : d.Consumes := hd.consumes fun a t ht => ht.1 ▸ hpos a
  obtain ⟨read, c₁, hpass, hroom, hcases⟩ := run_many_cases hconsumes bound overfull c
  rcases hcases with ⟨hend, hok⟩ | ⟨-, -, herror⟩ | ⟨-, -, e, c₂, -, herror⟩
  · rw [hok] at hrun
    obtain ⟨hread, rfl⟩ := Prod.mk.inj hrun
    obtain rfl := Except.ok.inj hread
    obtain ⟨bs, hbs, hrest, hP, hagain⟩ := hd.pass hpos hpass
    refine ⟨read.flatMap template, bs, ⟨rfl, hP⟩, hbs, hrest, ?_, ?_⟩
    · rw [Cursor.remaining, hend]
      rfl
    · intro bs' tail hfits htail pos
      rw [List.length_eq_zero_iff.1 htail]
      exact (hagain bs' [] pos hfits).run_many rfl hroom
  · rw [herror] at hrun
    cases (Prod.mk.inj hrun).1
  · rw [herror] at hrun
    cases (Prod.mk.inj hrun).1

end OpenFlow.Decoder
