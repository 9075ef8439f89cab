import Mathlib.Data.List.TakeWhile
import OpenFlow.Proofs.Limits.Families

set_option autoImplicit false

/-! # What limits refuse

Octets that carry more than the limits admit are refused for a limit, and for nothing else
(`Decoder.Refuses`). So what becomes of a set that was written can be told in full: it is read back
if the limits admit it, and if not, then the error names a limit (`Transmits.ofOctetsWithin_eq`,
`Transmits.ofOctetsWithin_exceeds`). -/

namespace OpenFlow

open Decoder

variable {α β : Type}

/-- Whatever comes next, reading from `bs` fails because a limit is exceeded. -/
def Decoder.Refuses (d : Decoder α) (bs : Octets) : Prop :=
  ∀ (tail : Octets) (pos : Nat), ∃ resource actual limit c,
    d.run ⟨pos, bs ++ tail⟩ = (.error (.limitExceeded resource actual limit), c)

/-! ## Sequencing -/

theorem Decoder.Refuses.bind {d : Decoder α} {bs : Octets} (h : d.Refuses bs)
    (f : α → Decoder β) : (d >>= f).Refuses bs := by
  intro tail pos
  obtain ⟨resource, actual, limit, c, hrun⟩ := h tail pos
  exact ⟨resource, actual, limit, c, run_bind_error hrun⟩

theorem Decoder.Reads.bind_refuses {d : Decoder α} {f : α → Decoder β} {bs cs : Octets} {a : α}
    (hd : d.Reads bs a) (hf : (f a).Refuses cs) : (d >>= f).Refuses (bs ++ cs) := by
  intro tail pos
  obtain ⟨resource, actual, limit, c, hrun⟩ := hf tail (pos + bs.length)
  refine ⟨resource, actual, limit, c, ?_⟩
  rw [List.append_assoc, run_bind_ok (hd (cs ++ tail) pos), hrun]

/-! ## Sequences -/

/-- A sequence that can be read but for its number of entries. -/
theorem Sequence.refuses_decode [Entry α] {limits : Limits} {octets : α → Octets} {as : List α}
    (hreads : ∀ a ∈ as, (Record.decode limits : Decoder α).Reads (octets a) a)
    (hpos : ∀ a ∈ as, octets a ≠ []) (hmany : limits.of (Entry.resource α) < as.length) :
    (Sequence.decode limits : Decoder (List α)).Refuses (as.flatMap octets) := by
  intro tail pos
  have hpass := Pass.of_reads hreads hpos pos tail
  have hwalk : Walk (fun read => Record.decode limits >>= fun a => pure (a :: read)) as.length []
      ⟨pos, as.flatMap octets ++ tail⟩ (as.foldl (fun read a => a :: read) [])
      ⟨pos + (as.flatMap octets).length, tail⟩ :=
    (walk_iff_pass (fun read a => a :: read) fun _ => rfl).2 ⟨as, rfl, rfl, hpass⟩
  obtain ⟨c, hrun⟩ := hwalk.exists_run_overfull (Sequence.overfull α limits)
    (Nat.le_of_lt hmany) fun heq => absurd heq (Nat.ne_of_gt hmany)
  exact ⟨_, _, _, c, run_bind_error hrun⟩

/-! ## Instructions -/

/-- A record is refused if its body is. -/
theorem RecordFormat.refuses_decode {F : RecordFormat α} {layout : Layout α} {code size : Nat}
    {body : Octets} (hcode : code < 65536) (hlt : size < 65536)
    (hsize : size = headerLength + body.length) (hlayout : F.layout? code = some layout)
    (hfits : layout.fits size = true) (hbody : (layout.body (.ofNats code size)).Refuses body) :
    F.decode.Refuses (bigEndian 2 code ++ bigEndian 2 size ++ body) := by
  intro tail pos
  obtain ⟨resource, actual, limit, c, hrun⟩ := hbody [] headerLength
  rw [List.append_nil] at hrun
  have ho := Header.opens_ofNats hcode hlt hsize tail
  have hlayout' : F.layout? (Header.ofNats code size).code = some layout := by
    rw [Header.code_ofNats size hcode, hlayout]
  have hfits' : ¬ layout.fits (Header.ofNats code size).size = false := by
    rw [Header.size_ofNats code hlt]
    exact ne_false_of_eq_true hfits
  let c' : Cursor := ⟨pos, bigEndian 2 code ++ bigEndian 2 size ++ body ++ tail⟩
  refine ⟨resource, actual, limit, (Header.ofNats code size).after tail c', ?_⟩
  rw [run_decode (c := c') ho, outcome_of_fits hlayout' hfits', hrun]

namespace Instruction

/-- An instruction that holds more actions than the limits allow. -/
theorem refuses_holdingActions {limits : Limits} {i : Instruction}
    {make : List Action → Instruction} {as : List Action}
    (hlayout : layout? limits i.kind = some (holdingActions limits make))
    (hbody : i.bodyOctets = zeros 4 ++ as.flatMap Action.octets) (hlength : i.length ≤ 0xffff)
    (hmany : limits.of .actions < as.length) : (decode limits).Refuses i.octets := by
  have hskip : (skip 4).Reads (zeros 4) () := reads_skip (length_zeros 4)
  have hactions : (Sequence.decode limits).Refuses (as.flatMap Action.octets) :=
    Sequence.refuses_decode (fun a _ => a.reads_decode) (fun a _ => a.octets_ne_nil) hmany
  have hrefuses : (do skip 4; return make (← Sequence.decode limits) : Decoder Instruction).Refuses
      i.bodyOctets := by
    rw [hbody]
    exact hskip.bind_refuses (hactions.bind _)
  have hformat : (format limits).layout? i.kind.code = some (holdingActions limits make) := by
    rw [← hlayout]
    exact congrArg (fun k => Option.bind k (layout? limits)) (InstructionKind.ofCode?_code i.kind)
  have hleast : 8 ≤ i.length := by
    rw [length_eq_body, hbody, List.length_append, length_zeros, headerLength]
    omega
  rw [decode_eq]
  exact RecordFormat.refuses_decode i.kind.code_lt (Nat.lt_succ_of_le hlength) i.length_eq_body
    hformat (decide_eq_true hleast) hrefuses

/-- What the limits do not admit in an instruction is the number of its actions. -/
theorem refuses_decode {limits : Limits} {i : Instruction} (hfit : LengthsFit i)
    (hlimits : ¬ limits.Admits i) : (decode limits).Refuses i.octets := by
  have hlength : i.length ≤ 0xffff := length_le_of_fit hfit
  have hmany : limits.of .actions < i.actions.length := by
    refine Nat.lt_of_not_le fun hle => hlimits ?_
    exact Limits.admits_iff.2 ⟨hle, fun _ _ => List.forall_mem_nil _⟩
  cases i with
  | writeActions as => exact refuses_holdingActions rfl rfl hlength hmany
  | applyActions as => exact refuses_holdingActions rfl rfl hlength hmany
  | gotoTable | writeMetadata | clearActions | meter => exact absurd hmany (Nat.not_lt_zero _)

end Instruction

/-! ## Sets -/

namespace KeyedSet

/-- The entries of a set up to the first that the limits do not admit. -/
theorem exists_admitted_before [Composite α] (s : KeyedSet α) (limits : Limits) :
    ∃ before after : List (Nat × α), s.slots = before ++ after
      ∧ (∀ slot ∈ before, limits.Admits slot.2)
      ∧ ∀ slot ∈ after.head?, ¬ limits.Admits slot.2 := by
  let admitted (slot : Nat × α) : Bool := decide (limits.Admits slot.2)
  refine ⟨s.slots.takeWhile admitted, s.slots.dropWhile admitted,
    List.takeWhile_append_dropWhile.symm, ?_, ?_⟩
  · intro slot hslot
    have hadmitted : admitted slot = true := List.mem_takeWhile_imp hslot
    exact of_decide_eq_true hadmitted
  · intro slot hslot
    have hfirst := List.head?_dropWhile_not admitted s.slots
    rw [Option.mem_def.1 hslot] at hfirst
    exact of_decide_eq_false hfirst

variable [Keyed α] {octets : α → Octets}

/-- The entries before a place in a set are read in a walk that ends there. -/
theorem exists_walk_before {limits : Limits} {s : KeyedSet α} (hs : s.WellKeyed)
    (hpos : ∀ a ∈ s.toList, octets a ≠ []) {before after : List (Nat × α)}
    (hslots : s.slots = before ++ after)
    (hreads : ∀ slot ∈ before, (Record.decode limits : Decoder α).Reads (octets slot.2) slot.2)
    (tail : Octets) (pos : Nat) :
    ∃ (t : KeyedSet α) (c : Cursor), Walk (decodeEntry limits) before.length empty
        ⟨pos, s.toList.flatMap octets ++ tail⟩ t c
      ∧ c.rest = (after.map Prod.snd).flatMap octets ++ tail := by
  have hsub : before.Sublist s.slots := hslots ▸ List.sublist_append_left before after
  let t : KeyedSet α := ⟨before, s.ascending.sublist (hsub.map Prod.fst)⟩
  have htreads : ∀ a ∈ t.toList, (Record.decode limits : Decoder α).Reads (octets a) a := by
    intro a ha
    obtain ⟨slot, hslot, rfl⟩ := List.mem_map.1 ha
    exact hreads slot hslot
  have hwalk := walk_decodeEntry (t := t) (fun slot h => hs slot (hsub.mem h)) htreads
    (fun a h => hpos a ((hsub.map Prod.snd).mem h))
    ((after.map Prod.snd).flatMap octets ++ tail) before empty pos rfl
  have hoctets : s.toList.flatMap octets
      = (before.map Prod.snd).flatMap octets ++ (after.map Prod.snd).flatMap octets := by
    rw [toList, hslots, List.map_append, List.flatMap_append]
  rw [hoctets, List.append_assoc]
  exact ⟨t, _, hwalk, rfl⟩

variable [Composite α]

/-- A set is refused at the first entry that is one too many or that the limits do not admit. -/
theorem refuses_decode {limits : Limits} {s : KeyedSet α} (hs : s.WellKeyed)
    (hreads : ∀ a ∈ s.toList, limits.Admits a →
      (Record.decode limits : Decoder α).Reads (octets a) a)
    (hrefuses : ∀ a ∈ s.toList, ¬ limits.Admits a →
      (Record.decode limits : Decoder α).Refuses (octets a))
    (hpos : ∀ a ∈ s.toList, octets a ≠ []) (hlimits : ¬ limits.Admits s) :
    (decode limits : Decoder (KeyedSet α)).Refuses (s.toList.flatMap octets) := by
  intro tail pos
  obtain ⟨before, after, hslots, hbefore, hafter⟩ := s.exists_admitted_before limits
  have hmem : ∀ slot ∈ before ++ after, slot.2 ∈ s.toList := fun slot h =>
    List.mem_map_of_mem (hslots ▸ h)
  obtain ⟨t, c, hwalk, hrest⟩ := exists_walk_before hs hpos hslots (fun slot h =>
    hreads slot.2 (hmem slot (List.mem_append_left _ h)) (hbefore slot h)) tail pos
  have hoverfull (hfull : limits.of (Entry.resource α) ≤ before.length)
      (hmore : before.length = limits.of (Entry.resource α) → c.rest ≠ []) :
      ∃ resource actual limit c', (decode limits : Decoder (KeyedSet α)).run
        ⟨pos, s.toList.flatMap octets ++ tail⟩
          = (.error (.limitExceeded resource actual limit), c') := by
    obtain ⟨c', hrun⟩ := hwalk.exists_run_overfull (Sequence.overfull α limits) hfull hmore
    exact ⟨_, _, _, c', hrun⟩
  cases after with
  | nil =>
    -- nothing is wrong with the entries, so there are too many
    have hmany : limits.of (Entry.resource α) < before.length := by
      refine Nat.lt_of_not_le fun hle => hlimits ?_
      have hlist : s.toList = before.map Prod.snd := by
        rw [toList, hslots, List.append_nil]
      show limits.Admits s.toList
      rw [hlist, Limits.admits_iff, List.length_map, List.forall_mem_map]
      exact ⟨hle, hbefore⟩
    exact hoverfull (Nat.le_of_lt hmany) fun heq => absurd heq (Nat.ne_of_gt hmany)
  | cons slot after =>
    have ha : slot.2 ∈ s.toList := hmem slot (List.mem_append_right _ List.mem_cons_self)
    rw [List.map_cons, List.flatMap_cons, List.append_assoc] at hrest
    have hmore : c.rest ≠ [] := by
      rw [hrest]
      exact List.append_ne_nil_of_left_ne_nil (hpos slot.2 ha) _
    by_cases hroom : before.length < limits.of (Entry.resource α)
    · obtain ⟨resource, actual, limit, c', hrun⟩ := hrefuses slot.2 ha (hafter slot rfl)
        ((after.map Prod.snd).flatMap octets ++ tail) c.pos
      rw [← hrest] at hrun
      have hentry : (decodeEntry limits t).run c = (.error _, c') :=
        run_decodeEntry_error_iff.2 (.inl hrun)
      exact ⟨resource, actual, limit, c', (LoopEnd.failed hwalk hmore hroom hentry).run_eq⟩
    · exact hoverfull (Nat.le_of_not_lt hroom) fun _ => hmore

end KeyedSet

/-! ## What becomes of a set that was written -/

/-- Entries are written as `octets` if their lengths fit, and from there they are read back, or
    refused by limits that do not admit them. -/
structure Transmits (α : Type) [Record α] [Composite α] (octets : α → Octets) : Prop where
  writes : ∀ a : α, LengthsFit a → (Record.encode a).Writes (octets a)
  fits : ∀ (a : α) (bs : Octets), (Record.encode a).Writes bs → LengthsFit a
  length_eq : ∀ a : α, (octets a).length = Record.length a
  ne_nil : ∀ a : α, octets a ≠ []
  reads : ∀ (limits : Limits) (a : α), LengthsFit a → limits.Admits a →
    (Record.decode limits : Decoder α).Reads (octets a) a
  refuses : ∀ (limits : Limits) (a : α), LengthsFit a → ¬ limits.Admits a →
    (Record.decode limits : Decoder α).Refuses (octets a)

theorem Action.lengthsFit (a : Action) : LengthsFit a :=
  List.forall_mem_singleton.2 (Nat.le_trans a.length_le (by decide))

/-- No list of actions has a length that does not fit: an action is short. -/
theorem Action.lengthsFit_list (as : List Action) : LengthsFit as := by
  intro n hn
  obtain ⟨a, -, ha⟩ := List.mem_flatMap.1 hn
  exact a.lengthsFit n ha

theorem Action.transmits : Transmits Action octets where
  writes a _ := a.writes_encode
  fits a _ _ := a.lengthsFit
  length_eq := length_octets
  ne_nil := octets_ne_nil
  reads _ a _ _ := a.reads_decode
  refuses _ _ _ hlimits := absurd (List.forall_mem_nil _) hlimits

theorem Field.transmits : Transmits Field octets where
  writes _ _ := rfl
  fits _ _ _ := List.forall_mem_nil _
  length_eq := length_octets
  ne_nil := octets_ne_nil
  reads _ f _ _ := f.reads_decode
  refuses _ _ _ hlimits := absurd (List.forall_mem_nil _) hlimits

theorem Instruction.transmits : Transmits Instruction octets where
  writes _ hfit := writes_encode (length_le_of_fit hfit)
  fits i bs hwrites := by
    obtain ⟨⟨header, hheader⟩, -⟩ := hwrites.parts
    exact List.forall_mem_cons.2 ⟨hheader.length_le, Action.lengthsFit_list i.actions⟩
  length_eq := length_octets
  ne_nil := octets_ne_nil
  reads _ _ hfit hlimits := (carries hfit hlimits).reads
  refuses _ _ hfit hlimits := refuses_decode hfit hlimits

namespace Transmits

variable [Keyed α] [Composite α] {octets : α → Octets} (h : Transmits α octets) {s : KeyedSet α}

include h

theorem octets_eq (hfit : LengthsFit s) :
    Record.octets s = .ok (s.toList.flatMap octets) :=
  (Encoding.writes_concat fun a ha => h.writes a (LengthsFit.of_mem hfit ha)).toExcept_eq

/-- A set is written if and only if its lengths fit. -/
theorem octets_eq_ok_iff {bs : Octets} :
    Record.octets s = .ok bs ↔ LengthsFit s ∧ bs = s.toList.flatMap octets := by
  constructor
  · intro hbs
    have hwrites : (Sequence.encode s.toList).Writes bs := Encoding.writes_of_toExcept hbs
    have hfit : LengthsFit s := by
      intro n hn
      obtain ⟨a, ha, hn⟩ := List.mem_flatMap.1 hn
      obtain ⟨cs, hcs⟩ := hwrites.of_mem_concat ha
      exact h.fits a cs hcs n hn
    rw [h.octets_eq hfit] at hbs
    exact ⟨hfit, (Except.ok.inj hbs).symm⟩
  · rintro ⟨hfit, rfl⟩
    exact h.octets_eq hfit

/-- A set that was written is read back if the limits admit it. -/
theorem ofOctetsWithin_eq (hs : s.WellKeyed) (hfit : LengthsFit s) {limits : Limits}
    (hlimits : limits.Admits s) :
    Record.ofOctetsWithin limits (s.toList.flatMap octets) = .ok s := by
  have hadmits : limits.Admits s.toList := hlimits
  have hcarries : ∀ a ∈ s.toList, Carries limits (octets a) a := fun a ha =>
    ⟨h.writes a (LengthsFit.of_mem hfit ha), h.length_eq a,
      h.reads limits a (LengthsFit.of_mem hfit ha) (hadmits.of_mem ha)⟩
  have hsize : s.size ≤ limits.of (Entry.resource α) := by
    have hlength := hadmits.length_le
    rwa [KeyedSet.toList, List.length_map] at hlength
  exact (KeyedSet.carriesAlone hs hcarries (fun a _ => h.ne_nil a) hsize).ofOctetsWithin_eq

/-- And if they do not admit it, reading fails for a limit. -/
theorem ofOctetsWithin_exceeds (hs : s.WellKeyed) (hfit : LengthsFit s) {limits : Limits}
    (hlimits : ¬ limits.Admits s) : ∃ resource actual limit,
      (Record.ofOctetsWithin limits (s.toList.flatMap octets) : Except DecodeError (KeyedSet α))
        = .error (.limitExceeded resource actual limit) := by
  have hrefuses := KeyedSet.refuses_decode hs
    (fun a ha => h.reads limits a (LengthsFit.of_mem hfit ha))
    (fun a ha => h.refuses limits a (LengthsFit.of_mem hfit ha)) (fun a _ => h.ne_nil a) hlimits
  obtain ⟨resource, actual, limit, c, hrun⟩ := hrefuses [] 0
  rw [List.append_nil] at hrun
  exact ⟨resource, actual, limit, Record.ofOctetsWithin_of_error hrun⟩

end Transmits

end OpenFlow
