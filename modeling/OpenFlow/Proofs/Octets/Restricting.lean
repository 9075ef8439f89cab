import OpenFlow.Proofs.Recoding.Format

set_option autoImplicit false

/-! # Decoders that read less than others

Two decoders that differ in the bounds of their loops read the same where both succeed, and what the
one refuses is told by the values that the other reads: that is `Decoder.Restricts`. No more values
are read than there are octets, so a bound makes no difference where the octets are fewer; the
relation is therefore about runs on at most `size` octets. Sequencing keeps it, as do confinement
and formats, and repetition adds a condition on the number of values (`Decoder.Restricts.many`). -/

namespace OpenFlow

variable {α β : Type}

namespace Decoder

/-! ## Reading goes forward -/

/-- A read that succeeds leaves no more octets than there were. -/
def Forward (d : Decoder α) : Prop :=
  ∀ (c c' : Cursor) (a : α), d.run c = (.ok a, c') → c'.remaining ≤ c.remaining

theorem Follows.forward {d : Decoder α} {room : Nat → Prop} {S : α → Template → Prop}
    (hd : d.Follows room S) : d.Forward := by
  intro c c' a hrun
  obtain ⟨t, bs, -, -, hrest, -⟩ := hd _ _ _ hrun
  rw [Cursor.remaining, Cursor.remaining, hrest, List.length_append]
  exact Nat.le_add_left _ _

theorem forward_skip (n : Nat) : (skip n).Forward := (follows_skip n).forward

theorem forward_u16 : u16.Forward := follows_u16.forward

theorem forward_u32 : u32.Forward := follows_u32.forward

theorem forward_expect (e : Element) : (Header.expect e).Forward := by
  intro c c' h hrun
  rcases Header.expect_cases e c with
    ⟨n, -, herror⟩ | ⟨h', rest, -, -, herror⟩ | ⟨h', body, tail, -, hok⟩
  · rw [herror] at hrun
    cases (Prod.mk.inj hrun).1
  · rw [herror] at hrun
    cases (Prod.mk.inj hrun).1
  · rw [hok] at hrun
    obtain ⟨-, rfl⟩ := Prod.mk.inj hrun
    exact Nat.le_refl _

/-! ## Restriction -/

/-- Of at most `size` octets, `d` reads those values that `d'` reads and `P` holds of. -/
def Restricts (size : Nat) (d d' : Decoder α) (P : α → Prop) : Prop :=
  ∀ (c c' : Cursor) (a : α), c.remaining ≤ size →
    (d.run c = (.ok a, c') ↔ d'.run c = (.ok a, c') ∧ P a)

variable {size : Nat} {d d' : Decoder α} {f f' : α → Decoder β} {P Q : α → Prop} {R : β → Prop}

/-- Nothing is refused of values that `P` holds of anyway. -/
theorem Recognizes.restricts (hd : d.Recognizes P) : Restricts size d d P :=
  fun _ _ _ _ => ⟨fun hrun => ⟨hrun, hd.value hrun⟩, And.left⟩

theorem restricts_self (d : Decoder α) (h : ∀ a, P a) : Restricts size d d P :=
  fun _ _ a _ => ⟨fun hrun => ⟨hrun, h a⟩, And.left⟩

theorem Restricts.congr (h : Restricts size d d' P) (hPQ : ∀ a, P a ↔ Q a) :
    Restricts size d d' Q :=
  fun c c' a hsize => (h c c' a hsize).trans (and_congr_right fun _ => hPQ a)

theorem Restricts.result_iff (h : Restricts size d d' P) {c : Cursor} (hsize : c.remaining ≤ size)
    {a : α} : (d.run c).1 = .ok a ↔ (d'.run c).1 = .ok a ∧ P a := by
  constructor
  · intro hresult
    have hrun : d.run c = (.ok a, (d.run c).2) := by rw [← hresult]
    obtain ⟨hrun', hP⟩ := (h c _ a hsize).1 hrun
    exact ⟨congrArg Prod.fst hrun', hP⟩
  · rintro ⟨hresult, hP⟩
    have hrun : d'.run c = (.ok a, (d'.run c).2) := by rw [← hresult]
    exact congrArg Prod.fst ((h c _ a hsize).2 ⟨hrun, hP⟩)

/-! ## Sequencing -/

theorem run_bind_ok_iff {c c' : Cursor} {b : β} :
    (d >>= f).run c = (.ok b, c') ↔ ∃ a c₁, d.run c = (.ok a, c₁) ∧ (f a).run c₁ = (.ok b, c') := by
  constructor
  · exact exists_of_run_bind_ok
  · rintro ⟨a, c₁, hfirst, hsecond⟩
    rw [run_bind_ok hfirst, hsecond]

/-- What is read first does not matter, as long as it goes forward. -/
theorem Forward.restricts_bind (hd : d.Forward) (hf : ∀ a, Restricts size (f a) (f' a) R) :
    Restricts size (d >>= f) (d >>= f') R := by
  intro c c' b hsize
  rw [run_bind_ok_iff, run_bind_ok_iff]
  constructor
  · rintro ⟨a, c₁, hfirst, hsecond⟩
    obtain ⟨hsecond', hR⟩ := (hf a c₁ c' b (Nat.le_trans (hd c c₁ a hfirst) hsize)).1 hsecond
    exact ⟨⟨a, c₁, hfirst, hsecond'⟩, hR⟩
  · rintro ⟨⟨a, c₁, hfirst, hsecond⟩, hR⟩
    exact ⟨a, c₁, hfirst, (hf a c₁ c' b (Nat.le_trans (hd c c₁ a hfirst) hsize)).2 ⟨hsecond, hR⟩⟩

/-- What is done after reading may only take over the condition on what was read. -/
theorem Restricts.bind (hd : Restricts size d d' P)
    (hf : ∀ a c c' b, (f a).run c = (.ok b, c') → (P a ↔ R b)) :
    Restricts size (d >>= f) (d' >>= f) R := by
  intro c c' b hsize
  rw [run_bind_ok_iff, run_bind_ok_iff]
  constructor
  · rintro ⟨a, c₁, hfirst, hsecond⟩
    obtain ⟨hfirst', hP⟩ := (hd c c₁ a hsize).1 hfirst
    exact ⟨⟨a, c₁, hfirst', hsecond⟩, (hf a c₁ c' b hsecond).1 hP⟩
  · rintro ⟨⟨a, c₁, hfirst, hsecond⟩, hR⟩
    exact ⟨a, c₁, (hd c c₁ a hsize).2 ⟨hfirst, (hf a c₁ c' b hsecond).2 hR⟩, hsecond⟩

theorem Restricts.map (hd : Restricts size d d' P) {g : α → β} (hg : ∀ a, P a ↔ R (g a)) :
    Restricts size (d >>= fun a => pure (g a)) (d' >>= fun a => pure (g a)) R := by
  refine hd.bind fun a c c' b hrun => ?_
  obtain rfl : g a = b := Except.ok.inj (Prod.mk.inj hrun).1
  exact hg a

/-! ## Repetition -/

theorem Restricts.pass_iff (hd : Restricts size d d' P) {as : List α} {c c' : Cursor}
    (hsize : c.remaining ≤ size) :
    Pass d c as c' ↔ Pass d' c as c' ∧ ∀ a ∈ as, P a := by
  constructor
  · intro h
    induction h with
    | nil c => exact ⟨.nil c, List.forall_mem_nil _⟩
    | @cons a as c c₁ c' hrun hlt rest ih =>
      obtain ⟨hrun', hP⟩ := (hd c c₁ a hsize).1 hrun
      obtain ⟨hrest, hPs⟩ := ih (Nat.le_trans (Nat.le_of_lt hlt) hsize)
      exact ⟨.cons hrun' hlt hrest, List.forall_mem_cons.2 ⟨hP, hPs⟩⟩
  · rintro ⟨h, hPs⟩
    induction h with
    | nil c => exact .nil c
    | @cons a as c c₁ c' hrun hlt rest ih =>
      obtain ⟨hP, hPs'⟩ := List.forall_mem_cons.1 hPs
      have hrest := ih (Nat.le_trans (Nat.le_of_lt hlt) hsize) hPs'
      exact .cons ((hd c c₁ a hsize).2 ⟨hrun, hP⟩) hlt hrest

/-- Values are collected if they stand there up to the end, and are not too many. -/
theorem run_many_ok_iff {d : Decoder α} (hd : d.Consumes) {bound : Nat} {overfull : DecodeError}
    {c c' : Cursor} {as : List α} :
    (many bound overfull d).run c = (.ok as, c') ↔
      Pass d c as c' ∧ c'.rest = [] ∧ as.length ≤ bound := by
  constructor
  · intro hrun
    obtain ⟨read, c₁, hpass, hroom, hcases⟩ := run_many_cases hd bound overfull c
    rcases hcases with ⟨hend, hok⟩ | ⟨-, -, herror⟩ | ⟨-, -, e, c₂, -, herror⟩
    · rw [hok] at hrun
      obtain ⟨hread, rfl⟩ := Prod.mk.inj hrun
      obtain rfl := Except.ok.inj hread
      exact ⟨hpass, hend, hroom⟩
    · rw [herror] at hrun
      cases (Prod.mk.inj hrun).1
    · rw [herror] at hrun
      cases (Prod.mk.inj hrun).1
  · rintro ⟨hpass, hend, hroom⟩
    exact hpass.run_many hend hroom

/-- A lower bound refuses what has more values; the higher one need not be higher than the number
    of octets. -/
theorem Restricts.many (hd : Restricts size d d' P) (hc : d.Consumes) (hc' : d'.Consumes)
    {bound bound' : Nat} (hbound : min bound size ≤ bound') (overfull overfull' : DecodeError) :
    Restricts size (Decoder.many bound overfull d) (Decoder.many bound' overfull' d')
      fun as => as.length ≤ bound ∧ ∀ a ∈ as, P a := by
  intro c c' as hsize
  rw [run_many_ok_iff hc, run_many_ok_iff hc', hd.pass_iff hsize]
  constructor
  · rintro ⟨⟨hpass, hPs⟩, hend, hroom⟩
    have hlength : as.length ≤ size := Nat.le_trans hpass.length_le hsize
    exact ⟨⟨hpass, hend, Nat.le_trans (Nat.le_min.2 ⟨hroom, hlength⟩) hbound⟩, hroom, hPs⟩
  · rintro ⟨⟨hpass, hend, -⟩, hroom, hPs⟩
    exact ⟨⟨hpass, hPs⟩, hend, hroom⟩

/-! ## Structures that declare their own length -/

/-- A body is on fewer octets than what it is cut out of. -/
theorem restricts_measured {e : Element} {least offset : Nat} (hoffset : offset + 2 ≤ least)
    (hd : Restricts size d d' P) :
    Restricts size (measured e least offset d) (measured e least offset d') P := by
  intro c c' a hsize
  rcases run_measured_cases (α := α) e hoffset c with
    ⟨error, -, herror⟩ | ⟨chunk, tail, hrest, -, -, hrun⟩
  · rw [herror, herror]
    simp
  · have hchunk : (Cursor.start chunk).remaining ≤ size := by
      rw [Cursor.remaining, hrest, List.length_append] at hsize
      exact Nat.le_trans (Nat.le_add_right _ _) hsize
    rw [hrun, hrun, Prod.mk.injEq, Prod.mk.injEq, hd.result_iff hchunk]
    exact and_right_comm

end Decoder

/-! ## Layouts and formats -/

open Decoder

/-- The layouts have the same lengths, and the bodies of the one restrict those of the other. -/
structure Layout.Restricts (size : Nat) (layout layout' : Layout α) (P : α → Prop) : Prop where
  fits_eq : layout.fits = layout'.fits
  body : ∀ h, Decoder.Restricts size (layout.body h) (layout'.body h) P

theorem Layout.restricts_self {size : Nat} {layout : Layout α} {P : α → Prop}
    (h : ∀ h, (layout.body h).Recognizes P) : layout.Restricts size layout P :=
  ⟨rfl, fun header => (h header).restricts⟩

variable {size : Nat} {P : α → Prop}

theorem Decoder.restricts_element {e : Element} {code : Nat} {layout layout' : Layout α}
    (h : layout.Restricts size layout' P) :
    Restricts size (element e code layout) (element e code layout') P := by
  intro c c' a hsize
  rcases Header.expect_cases e c with
    ⟨n, -, herror⟩ | ⟨header, rest, -, -, herror⟩ | ⟨header, body, tail, ho, -⟩
  · rw [run_element_of_error herror, run_element_of_error herror]
    simp
  · rw [run_element_of_error herror, run_element_of_error herror]
    simp
  · rw [run_element e code layout ho, run_element e code layout' ho, h.fits_eq]
    split
    · simp
    · split
      · simp
      · have hbody : (⟨headerLength, body⟩ : Cursor).remaining ≤ size := by
          have hle := ho.size_le
          rw [ho.size_eq] at hle
          exact Nat.le_trans (Nat.le_trans (Nat.le_add_left _ _) hle) hsize
        rw [Prod.mk.injEq, Prod.mk.injEq, (h.body header).result_iff hbody]
        exact and_right_comm

/-- The padding after an element does not bear on its value. -/
theorem Decoder.restricts_elementPadded {e : Element} {code : Nat} {layout layout' : Layout α}
    (h : layout.Restricts size layout' P) :
    Restricts size (elementPadded e code layout) (elementPadded e code layout') P := by
  have hpair : (Layout.mk layout.fits fun h => do return (h.size, ← layout.body h)).Restricts size
      (Layout.mk layout'.fits fun h => do return (h.size, ← layout'.body h)) (P ·.2) :=
    ⟨h.fits_eq, fun header => (h.body header).map fun _ => Iff.rfl⟩
  refine (restricts_element hpair).bind ?_
  rintro ⟨n, a⟩ c c' b hrun
  obtain ⟨_, c₁, -, hpure⟩ := exists_of_run_bind_ok hrun
  obtain rfl : a = b := Except.ok.inj (Prod.mk.inj hpure).1
  exact Iff.rfl

/-- The kinds of the two formats are the same, and the layouts of the one restrict those of the
    other. -/
structure RecordFormat.Restricts (size : Nat) (F G : RecordFormat α) (P : α → Prop) : Prop where
  element_eq : F.element = G.element
  framing_eq : F.framing = G.framing
  layout : ∀ code, Option.Rel (fun layout layout' => layout.Restricts size layout' P)
    (F.layout? code) (G.layout? code)

theorem Header.run_skipUnknown_ne_ok {e : Element} {framing : Framing} {c c' : Cursor} {a : α} :
    (skipUnknown e framing).run c ≠ (.ok a, c') := by
  intro hrun
  obtain ⟨h, c₁, -, hfail⟩ := exists_of_run_bind_ok hrun
  cases (Prod.mk.inj hfail).1

theorem RecordFormat.restricts_decode {F G : RecordFormat α} (h : F.Restricts size G P) :
    Decoder.Restricts size F.decode G.decode P := by
  unfold decode
  rw [h.element_eq, h.framing_eq]
  refine (forward_expect G.element).restricts_bind fun header => ?_
  have hlayout := h.layout header.code
  generalize F.layout? header.code = layout? at hlayout ⊢
  generalize G.layout? header.code = layout?' at hlayout ⊢
  cases hlayout with
  | none => exact fun c c' a _ => by simp [Header.run_skipUnknown_ne_ok]
  | some hrestricts =>
    refine (restricts_element hrestricts).bind fun a c c' b hrun => ?_
    -- padding or none, the value is the one that was read
    cases hframing : G.framing with
    | paddingIncluded =>
      rw [hframing] at hrun
      obtain rfl : a = b := Except.ok.inj (Prod.mk.inj hrun).1
      exact Iff.rfl
    | paddingExcluded =>
      rw [hframing] at hrun
      obtain ⟨_, c₁, -, hpure⟩ := exists_of_run_bind_ok hrun
      obtain rfl : a = b := Except.ok.inj (Prod.mk.inj hpure).1
      exact Iff.rfl

end OpenFlow
