import OpenFlow.Proofs.Octets.Restricting

set_option autoImplicit false

/-! # Decoders of a grammar

A grammar tells which octets stand for which values; `d.Parses spans` says that the decoder `d`
reads a value from octets that stand for it and from no others. Then reading values until the octets
run out accepts just the octets that are put together from such chunks (`Parses.run_many_iff`), and
there is one way to take them apart (`Parses.eq_of_flatten_eq`). -/

namespace OpenFlow.Decoder

variable {α : Type}

/-- `d` reads the values from the octets that stand for them, and reads nothing else. -/
structure Parses (d : Decoder α) (spans : α → Octets → Prop) : Prop where
  reads : ∀ {a : α} {bs : Octets}, spans a bs → d.Reads bs a
  ne_nil : ∀ {a : α} {bs : Octets}, spans a bs → bs ≠ []
  exists_chunk : ∀ {c c' : Cursor} {a : α}, d.run c = (.ok a, c') →
    ∃ bs, spans a bs ∧ c.rest = bs ++ c'.rest

namespace Parses

variable {d : Decoder α} {spans : α → Octets → Prop}

/-- The octets of a value are those that the cursor passes. -/
theorem exists_eq_advance (hd : d.Parses spans) {c c' : Cursor} {a : α}
    (hrun : d.run c = (.ok a, c')) :
    ∃ bs, spans a bs ∧ c.rest = bs ++ c'.rest ∧ c'.pos = c.pos + bs.length := by
  obtain ⟨bs, hspans, hrest⟩ := hd.exists_chunk hrun
  obtain ⟨pos, rest⟩ := c
  obtain rfl : rest = bs ++ c'.rest := hrest
  have hread := hd.reads hspans c'.rest pos
  rw [hrun] at hread
  exact ⟨bs, hspans, rfl, congrArg (fun run => run.2.pos) hread⟩

theorem consumes (hd : d.Parses spans) : d.Consumes := by
  intro c a c' hrun
  obtain ⟨bs, hspans, hrest⟩ := hd.exists_chunk hrun
  have hpos := List.length_pos_iff.2 (hd.ne_nil hspans)
  rw [Cursor.remaining, Cursor.remaining, hrest, List.length_append]
  omega

/-! ## Values in a row -/

theorem pass (hd : d.Parses spans) {as : List α} {chunks : List Octets}
    (h : List.Forall₂ spans as chunks) (pos : Nat) (tail : Octets) :
    Pass d ⟨pos, chunks.flatten ++ tail⟩ as ⟨pos + chunks.flatten.length, tail⟩ := by
  induction h generalizing pos with
  | nil => exact .nil _
  | @cons a bs as chunks hspans _ ih =>
    have hne := List.length_pos_iff.2 (hd.ne_nil hspans)
    rw [List.flatten_cons, List.append_assoc, List.length_append, ← Nat.add_assoc]
    refine .cons (hd.reads hspans _ pos) ?_ (ih _)
    simp only [Cursor.remaining, List.length_append]
    omega

theorem exists_chunks (hd : d.Parses spans) {c c' : Cursor} {as : List α} (h : Pass d c as c') :
    ∃ chunks, List.Forall₂ spans as chunks ∧ c.rest = chunks.flatten ++ c'.rest
      ∧ c'.pos = c.pos + chunks.flatten.length := by
  induction h with
  | nil c => exact ⟨[], .nil, rfl, rfl⟩
  | cons hrun _ _ ih =>
    obtain ⟨bs, hspans, hrest, hpos⟩ := hd.exists_eq_advance hrun
    obtain ⟨chunks, hchunks, hrest', hpos'⟩ := ih
    refine ⟨bs :: chunks, .cons hspans hchunks, ?_, ?_⟩
    · rw [hrest, hrest', List.flatten_cons, List.append_assoc]
    · rw [hpos', hpos, List.flatten_cons, List.length_append, Nat.add_assoc]

/-- From the start of a buffer the cursor comes to the ends of chunks, and to no other places. -/
theorem pass_start_iff (hd : d.Parses spans) {bs : Octets} {as : List α} {c : Cursor} :
    Pass d (.start bs) as c ↔ ∃ chunks, List.Forall₂ spans as chunks
      ∧ bs = chunks.flatten ++ c.rest ∧ c.pos = chunks.flatten.length := by
  constructor
  · intro h
    obtain ⟨chunks, hchunks, hrest, hpos⟩ := hd.exists_chunks h
    exact ⟨chunks, hchunks, hrest, hpos.trans (Nat.zero_add _)⟩
  · rintro ⟨chunks, hchunks, rfl, hpos⟩
    have h := hd.pass hchunks 0 c.rest
    rwa [Nat.zero_add, ← hpos] at h

/-- Octets are read to their end if they are chunks in a row, and not too many. -/
theorem run_many_iff (hd : d.Parses spans) {bound : Nat} {overfull : DecodeError} {bs : Octets}
    {as : List α} :
    ((many bound overfull d).run (.start bs)).1 = .ok as ↔
      as.length ≤ bound ∧ ∃ chunks, bs = chunks.flatten ∧ List.Forall₂ spans as chunks := by
  constructor
  · intro hrun
    obtain ⟨hpass, hend, hcount⟩ := (run_many_ok_iff hd.consumes).1 (Prod.ext hrun rfl)
    obtain ⟨chunks, hchunks, hbs, -⟩ := hd.pass_start_iff.1 hpass
    rw [hend, List.append_nil] at hbs
    exact ⟨hcount, chunks, hbs, hchunks⟩
  · rintro ⟨hcount, chunks, rfl, hchunks⟩
    have hpass := hd.pass hchunks 0 []
    rw [List.append_nil] at hpass
    exact congrArg Prod.fst (hpass.run_many rfl hcount)

/-! ## Taking octets apart -/

/-- The first chunk is decided by the octets, whatever comes after it. -/
theorem eq_of_append_eq (hd : d.Parses spans) {a a' : α} {bs bs' tail tail' : Octets}
    (h : spans a bs) (h' : spans a' bs') (heq : bs ++ tail = bs' ++ tail') :
    a = a' ∧ bs = bs' ∧ tail = tail' := by
  have hrun := hd.reads h tail 0
  have hrun' := hd.reads h' tail' 0
  rw [heq, hrun'] at hrun
  obtain ⟨hvalue, hcursor⟩ := Prod.mk.inj hrun
  obtain rfl : tail' = tail := congrArg Cursor.rest hcursor
  exact ⟨(Except.ok.inj hvalue).symm, List.append_cancel_right heq, rfl⟩

theorem eq_of_flatten_eq (hd : d.Parses spans) {as as' : List α} {chunks chunks' : List Octets}
    (h : List.Forall₂ spans as chunks) (h' : List.Forall₂ spans as' chunks')
    (heq : chunks.flatten = chunks'.flatten) : as = as' ∧ chunks = chunks' := by
  induction h generalizing as' chunks' with
  | nil =>
    cases h' with
    | nil => exact ⟨rfl, rfl⟩
    | cons hspans _ =>
      exact absurd (List.append_eq_nil_iff.1 heq.symm).1 (hd.ne_nil hspans)
  | cons hspans _ ih =>
    cases h' with
    | nil => exact absurd (List.append_eq_nil_iff.1 heq).1 (hd.ne_nil hspans)
    | cons hspans' hrest' =>
      obtain ⟨rfl, rfl, htail⟩ := hd.eq_of_append_eq hspans hspans' heq
      obtain ⟨rfl, rfl⟩ := ih hrest' htail
      exact ⟨rfl, rfl⟩

end Parses

/-! ## Values that are made of others -/

theorem pass_bind_pure_iff {β : Type} {d : Decoder α} {f : α → β} {c c' : Cursor} {bs : List β} :
    Pass (d >>= fun a => pure (f a)) c bs c' ↔ ∃ as, as.map f = bs ∧ Pass d c as c' := by
  constructor
  · intro h
    induction h with
    | nil c => exact ⟨[], rfl, .nil c⟩
    | cons hrun hlt _ ih =>
      obtain ⟨a, ha, rfl⟩ := run_bind_pure_iff.1 hrun
      obtain ⟨as, rfl, hpass⟩ := ih
      exact ⟨a :: as, rfl, .cons ha hlt hpass⟩
  · rintro ⟨as, rfl, hpass⟩
    induction hpass with
    | nil c => exact .nil c
    | cons hrun hlt _ ih => exact .cons (run_bind_pure_iff.2 ⟨_, hrun, rfl⟩) hlt ih

end OpenFlow.Decoder
