import OpenFlow.Proofs.Octets.Exchange
import OpenFlow.Proofs.Octets.Requesting

set_option autoImplicit false

/-! # Readers that keep to their octets

A cursor does not show the octets that it has passed, so it cannot say what a reader was opened
over. Here this is written down beside it. A `Window` is all that a reader was opened over, with a
place in it, and a `Nest` is the windows of all open readers. `Nest.Step` says what a step may do to
them: it fails exactly if it requests more octets than remain, and then nothing moves; otherwise it
answers the next octets. Any run of readers consists of such steps (`Nest.exists_run`).

What a reader comes to that was cut off from another depends on its own octets only. Readers do the
same alone and inside others (`ReaderStack.step_inside`), up to the step that drops the last of
them; then those around them go on where they were left (`ReaderStack.visit_inside`). -/

namespace OpenFlow

/-! ## Windows -/

/-- The octets that a reader was opened over, and how many of them it has passed. -/
structure Window where
  data : Octets
  pos : Nat
  pos_le : pos ≤ data.length

namespace Window

/-- All of the octets, with none of them passed. -/
def start (data : Octets) : Window := ⟨data, 0, Nat.zero_le _⟩

/-- The octets not passed yet. -/
def unread (w : Window) : Octets := w.data.drop w.pos

/-- How many octets were not passed yet. -/
def remaining (w : Window) : Nat := w.data.length - w.pos

/-- The next `n` octets. -/
def next (w : Window) (n : Nat) : Octets := w.unread.take n

/-- The same octets, with the next `n` passed. -/
def pass (w : Window) (n : Nat) (h : n ≤ w.remaining) : Window :=
  ⟨w.data, w.pos + n, Nat.add_le_of_le_sub' w.pos_le h⟩

/-- The cursor of the reader. -/
def cursor (w : Window) : Cursor := ⟨w.pos, w.unread⟩

@[simp] theorem rest_cursor (w : Window) : w.cursor.rest = w.unread := rfl

@[simp] theorem remaining_cursor (w : Window) : w.cursor.remaining = w.remaining :=
  List.length_drop

@[simp] theorem cursor_start (data : Octets) : (start data).cursor = .start data := rfl

@[simp] theorem cursor_pass (w : Window) (n : Nat) (h : n ≤ w.remaining) :
    (w.pass n h).cursor = w.cursor.advance n := by
  simp [cursor, pass, unread, Cursor.advance, List.drop_drop]

theorem pos_add_remaining (w : Window) :
    w.cursor.pos + w.cursor.remaining = w.data.length := by
  rw [remaining_cursor]
  exact Nat.add_sub_cancel' w.pos_le

end Window

/-- The windows of readers inside readers: the innermost, and those around it from the inside
    out. -/
structure Nest where
  inner : Window
  outer : List Window

namespace Nest

/-- One reader over all octets. -/
def start (data : Octets) : Nest := ⟨.start data, []⟩

/-- All windows. -/
def windows (ws : Nest) : List Window := ws.inner :: ws.outer

/-- The readers that stand in the windows. -/
def readers (ws : Nest) : ReaderStack := ⟨ws.inner.cursor, ws.outer.map Window.cursor⟩

end Nest

/-! ## What a step may do to the windows -/

namespace ReadStep

/-- How many octets a step requests. Showing what is to come requests none. -/
def requested : ReadStep → Nat
  | .u8 => 1
  | .u16 | .peekU16 => 2
  | .u32 | .peekU32 => 4
  | .u64 => 8
  | .octets n | .skip n | .split n => n
  | .rest | .pop => 0

/-- The steps that pass the octets that they request, and what they answer of them. -/
inductive Reads : ReadStep → (Octets → ReadValue) → Prop
  | u8 : Reads .u8 fun bs => .number 1 bs.toNat
  | u16 : Reads .u16 fun bs => .number 2 bs.toNat
  | u32 : Reads .u32 fun bs => .number 4 bs.toNat
  | u64 : Reads .u64 fun bs => .number 8 bs.toNat
  | octets (n : Nat) : Reads (.octets n) fun bs => .octets bs
  | skip (n : Nat) : Reads (.skip n) fun _ => .none

/-- The steps that look ahead at the octets that they request, and what they answer of them. -/
inductive Peeks : ReadStep → (Octets → ReadValue) → Prop
  | u16 : Peeks .peekU16 fun bs => .number 2 bs.toNat
  | u32 : Peeks .peekU32 fun bs => .number 4 bs.toNat

end ReadStep

namespace Nest

/-- What a step that succeeds answers, and the windows after it. -/
inductive Yields : Nest → ReadStep → ReadValue → Nest → Prop
  /-- The next octets are answered and passed. -/
  | read {w : Window} {outer : List Window} {r : ReadStep} {f : Octets → ReadValue}
      (hr : r.Reads f) (h : r.requested ≤ w.remaining) :
      Yields ⟨w, outer⟩ r (f (w.next r.requested)) ⟨w.pass r.requested h, outer⟩
  /-- The next octets are answered, and none is passed. -/
  | peek {w : Window} {outer : List Window} {r : ReadStep} {f : Octets → ReadValue}
      (hr : r.Peeks f) (h : r.requested ≤ w.remaining) :
      Yields ⟨w, outer⟩ r (f (w.next r.requested)) ⟨w, outer⟩
  /-- All octets to come are answered, and none is passed. -/
  | rest {w : Window} {outer : List Window} :
      Yields ⟨w, outer⟩ .rest (.octets w.unread) ⟨w, outer⟩
  /-- The next octets are passed, and a reader is opened over them alone. -/
  | split {w : Window} {outer : List Window} {n : Nat} (h : n ≤ w.remaining) :
      Yields ⟨w, outer⟩ (.split n) .none ⟨.start (w.next n), w.pass n h :: outer⟩
  /-- The innermost reader is dropped. -/
  | pop {w parent : Window} {outer : List Window} :
      Yields ⟨w, parent :: outer⟩ .pop .none ⟨parent, outer⟩
  /-- The outermost reader is kept. -/
  | popLast {w : Window} : Yields ⟨w, []⟩ .pop .none ⟨w, []⟩

/-- What a step may come to: the result, and the windows after it. -/
structure Step (ws : Nest) (r : ReadStep) (result : Except DecodeError ReadValue) (ws' : Nest) :
    Prop where
  /-- It fails exactly if it requests more octets than remain. -/
  fails_iff : (∃ e, result = .error e) ↔ ws.inner.remaining < r.requested
  /-- A failure reports both numbers, and nothing has moved. -/
  unmoved : ∀ e, result = .error e →
    e = .endOfInput r.requested ws.inner.remaining ∧ ws' = ws
  /-- A success answers the octets that come next. -/
  yields : ∀ v, result = .ok v → ws.Yields r v ws'

theorem Yields.requested_le {ws ws' : Nest} {r : ReadStep} {v : ReadValue}
    (h : ws.Yields r v ws') : r.requested ≤ ws.inner.remaining := by
  cases h with
  | read _ h | peek _ h | split h => exact h
  | rest | pop | popLast => exact Nat.zero_le _

theorem Yields.step {ws ws' : Nest} {r : ReadStep} {v : ReadValue} (h : ws.Yields r v ws') :
    ws.Step r (.ok v) ws' where
  fails_iff := by simpa using h.requested_le
  unmoved := by simp
  yields := by
    rintro _ ⟨⟩
    exact h

theorem step_of_short {ws : Nest} {r : ReadStep} (h : ws.inner.remaining < r.requested) :
    ws.Step r (.error (.endOfInput r.requested ws.inner.remaining)) ws where
  fails_iff := by simpa using h
  unmoved := by
    rintro _ ⟨⟩
    exact ⟨rfl, rfl⟩
  yields := by simp

end Nest

/-! ## Single steps of the readers -/

namespace ReaderStack

variable {s : ReaderStack} {n : Nat}

theorem step_split_of_le (h : n ≤ s.top.remaining) :
    s.step (.split n) = (.ok .none, ⟨.start (s.top.rest.take n), s.top.advance n :: s.outer⟩) := by
  rw [step, (Decoder.requests_octets n).enough h]

theorem step_split_of_lt (h : s.top.remaining < n) :
    s.step (.split n) = (.error (.endOfInput n s.top.remaining), s) := by
  rw [step, (Decoder.requests_octets n).short h]

end ReaderStack

namespace ReadStep

open Decoder

variable {r : ReadStep} {f : Octets → ReadValue}

theorem Reads.requests (h : r.Reads f) :
    ∃ d : Decoder ReadValue, (∀ s : ReaderStack, s.step r = s.read d)
      ∧ d.Requests r.requested r.requested f := by
  cases h with
  | u8 =>
    exact ⟨_, fun _ => rfl, requests_u8.number (fun _ h => UInt8.toNat_ofNat_of_lt' h) _⟩
  | u16 =>
    exact ⟨_, fun _ => rfl, requests_u16.number (fun _ h => UInt16.toNat_ofNat_of_lt' h) _⟩
  | u32 =>
    exact ⟨_, fun _ => rfl, requests_u32.number (fun _ h => UInt32.toNat_ofNat_of_lt' h) _⟩
  | u64 =>
    exact ⟨_, fun _ => rfl, requests_u64.number (fun _ h => UInt64.toNat_ofNat_of_lt' h) _⟩
  | octets n => exact ⟨_, fun _ => rfl, (requests_octets n).map _⟩
  | skip n => exact ⟨_, fun _ => rfl, (requests_skip n).map fun _ => ReadValue.none⟩

theorem Peeks.requests (h : r.Peeks f) :
    ∃ d : Decoder ReadValue, (∀ s : ReaderStack, s.step r = s.read d)
      ∧ d.Requests r.requested 0 f := by
  cases h with
  | u16 =>
    exact ⟨_, fun _ => rfl, requests_u16.ahead.number (fun _ h => UInt16.toNat_ofNat_of_lt' h) _⟩
  | u32 =>
    exact ⟨_, fun _ => rfl, requests_u32.ahead.number (fun _ h => UInt32.toNat_ofNat_of_lt' h) _⟩

end ReadStep

namespace Nest

/-- The readers that stand in the windows take the step as the windows may. -/
def Takes (ws : Nest) (r : ReadStep) : Prop :=
  ∃ result ws', ws.Step r result ws' ∧ ws.readers.step r = (result, ws'.readers)

theorem takes_of_short {ws : Nest} {r : ReadStep} (h : ws.inner.remaining < r.requested)
    (hstep : ws.readers.step r =
      (.error (.endOfInput r.requested ws.inner.remaining), ws.readers)) : ws.Takes r :=
  ⟨_, _, step_of_short h, hstep⟩

theorem Yields.takes {ws ws' : Nest} {r : ReadStep} {v : ReadValue} (h : ws.Yields r v ws')
    (hstep : ws.readers.step r = (.ok v, ws'.readers)) : ws.Takes r :=
  ⟨_, _, h.step, hstep⟩

/-- A decoder that requests octets takes the step if the windows may pass over as many. -/
theorem takes_of_requests {ws : Nest} {r : ReadStep} {d : Decoder ReadValue} {m : Nat}
    {f : Octets → ReadValue} (hstep : ∀ s : ReaderStack, s.step r = s.read d)
    (hd : d.Requests r.requested m f)
    (hyields : r.requested ≤ ws.inner.remaining → ∃ ws',
      ws.Yields r (f (ws.inner.next r.requested)) ws'
        ∧ ws'.readers = ⟨ws.inner.cursor.advance m, ws.readers.outer⟩) : ws.Takes r := by
  rcases Nat.lt_or_ge ws.inner.remaining r.requested with hshort | henough
  · have hrun := hd.short (c := ws.readers.top) (by rwa [readers, Window.remaining_cursor])
    refine takes_of_short hshort ?_
    rw [hstep, ReaderStack.read, hrun, readers, Window.remaining_cursor]
  · have hrun := hd.enough (c := ws.readers.top) (by rwa [readers, Window.remaining_cursor])
    obtain ⟨ws', h, hreaders⟩ := hyields henough
    refine h.takes ?_
    rw [hstep, ReaderStack.read, hrun, hreaders]
    rfl

theorem takes_of_reads {ws : Nest} {r : ReadStep} {f : Octets → ReadValue} (hr : r.Reads f) :
    ws.Takes r := by
  obtain ⟨d, hstep, hd⟩ := hr.requests
  exact takes_of_requests hstep hd fun h => ⟨_, .read hr h, by simp [readers]⟩

theorem takes_of_peeks {ws : Nest} {r : ReadStep} {f : Octets → ReadValue} (hr : r.Peeks f) :
    ws.Takes r := by
  obtain ⟨d, hstep, hd⟩ := hr.requests
  exact takes_of_requests hstep hd fun h => ⟨_, .peek hr h, by simp [readers]⟩

theorem takes_split (ws : Nest) (n : Nat) : ws.Takes (.split n) := by
  have hremaining : ws.readers.top.remaining = ws.inner.remaining := ws.inner.remaining_cursor
  rcases Nat.lt_or_ge ws.inner.remaining n with hshort | henough
  · refine takes_of_short hshort ?_
    rw [ReaderStack.step_split_of_lt (hremaining ▸ hshort), hremaining]
    rfl
  · refine (Yields.split henough).takes ?_
    rw [ReaderStack.step_split_of_le (hremaining ▸ henough)]
    simp [readers, Window.next]

theorem takes (ws : Nest) (r : ReadStep) : ws.Takes r := by
  cases r with
  | u8 => exact takes_of_reads .u8
  | u16 => exact takes_of_reads .u16
  | u32 => exact takes_of_reads .u32
  | u64 => exact takes_of_reads .u64
  | octets n => exact takes_of_reads (.octets n)
  | skip n => exact takes_of_reads (.skip n)
  | peekU16 => exact takes_of_peeks .u16
  | peekU32 => exact takes_of_peeks .u32
  | rest => exact Yields.rest.takes rfl
  | split n => exact ws.takes_split n
  | pop =>
    obtain ⟨w, _ | ⟨parent, outer⟩⟩ := ws
    · exact Yields.popLast.takes rfl
    · exact Yields.pop.takes rfl

/-! ## Runs -/

/-- Steps taken one after the other, each with its result and the windows after it. -/
inductive Run : Nest → List ReadStep → List (Except DecodeError ReadValue × Nest) → Prop
  | nil (ws : Nest) : Run ws [] []
  | cons {ws ws' : Nest} {r : ReadStep} {rs : List ReadStep}
      {result : Except DecodeError ReadValue} {run : List (Except DecodeError ReadValue × Nest)}
      (hstep : ws.Step r result ws') (hrun : Run ws' rs run) :
      Run ws (r :: rs) ((result, ws') :: run)

/-- Whatever steps are taken, the readers take them as the windows may. -/
theorem exists_run (ws : Nest) (rs : List ReadStep) :
    ∃ run, ws.Run rs run ∧ ws.readers.steps rs = run.map fun a => (a.1, a.2.readers) := by
  induction rs generalizing ws with
  | nil => exact ⟨[], .nil ws, rfl⟩
  | cons r rs ih =>
    obtain ⟨result, ws', hstep, hreaders⟩ := ws.takes r
    obtain ⟨run, hrun, hsteps⟩ := ih ws'
    refine ⟨(result, ws') :: run, .cons hstep hrun, ?_⟩
    rw [ReaderStack.steps, hreaders, hsteps, List.map_cons]

end Nest

/-! ## Readers opened inside others -/

namespace ReaderStack

/-- The readers of `s`, opened inside those of `around`. -/
def inside (s around : ReaderStack) : ReaderStack :=
  ⟨s.top, s.outer ++ around.top :: around.outer⟩

/-- No step drops the last reader. -/
def StaysOpen : ReaderStack → List ReadStep → Prop
  | _, [] => True
  | s, r :: rs => (r = .pop → s.outer ≠ []) ∧ (s.step r).2.StaysOpen rs

/-- What the steps of readers come to that were opened inside those of `around`: what they come to
    for these readers alone, up to the step that drops the last of them. From there on it is what
    they come to for the readers of `around`. -/
inductive Visit (s around : ReaderStack) :
    List ReadStep → List (Except DecodeError ReadValue × ReaderStack) → Prop
  | stays (rs : List ReadStep) (h : s.StaysOpen rs) :
      Visit s around rs ((s.steps rs).map fun a => (a.1, a.2.inside around))
  | returns (rs rs' : List ReadStep) (h : s.StaysOpen rs) (hlast : (s.after rs).outer = []) :
      Visit s around (rs ++ .pop :: rs') ((s.steps rs).map (fun a => (a.1, a.2.inside around))
        ++ (.ok .none, around) :: around.steps rs')

variable {s around : ReaderStack} {r : ReadStep}

/-- A step sees nothing of the readers around, unless it drops the last one. -/
theorem step_inside (h : r = .pop → s.outer ≠ []) :
    (s.inside around).step r = ((s.step r).1, (s.step r).2.inside around) := by
  obtain ⟨top, outer⟩ := s
  cases r with
  | u8 | u16 | u32 | u64 | peekU16 | peekU32 | octets n | skip n | rest => rfl
  | split n =>
    rcases Nat.lt_or_ge top.remaining n with hshort | henough
    · rw [step_split_of_lt (s := ⟨top, outer⟩) hshort]
      exact step_split_of_lt hshort
    · rw [step_split_of_le (s := ⟨top, outer⟩) henough]
      exact step_split_of_le henough
  | pop =>
    cases outer with
    | nil => exact absurd rfl (h rfl)
    | cons parent outer => rfl

theorem Visit.cons {rs : List ReadStep}
    {answers : List (Except DecodeError ReadValue × ReaderStack)}
    (h : r = .pop → s.outer ≠ []) (hvisit : Visit (s.step r).2 around rs answers) :
    Visit s around (r :: rs) (((s.step r).1, (s.step r).2.inside around) :: answers) := by
  cases hvisit with
  | stays rs hopen => exact .stays (r :: rs) ⟨h, hopen⟩
  | returns rs rs' hopen hlast =>
    exact .returns (r :: rs) rs' ⟨h, hopen⟩ (by rwa [after_cons])

theorem visit_inside (s around : ReaderStack) (rs : List ReadStep) :
    Visit s around rs ((s.inside around).steps rs) := by
  induction rs generalizing s with
  | nil => exact .stays [] trivial
  | cons r rs ih =>
    -- the step that drops the last reader ends the visit, and any other is the first step of one
    by_cases hdrop : r = .pop ∧ s.outer = []
    · obtain ⟨rfl, hlast⟩ := hdrop
      have hstep : (s.inside around).step .pop = (.ok .none, around) := by
        simp [step, inside, hlast]
      rw [steps, hstep]
      exact .returns [] rs trivial hlast
    · have hopen : r = .pop → s.outer ≠ [] := fun hr houter => hdrop ⟨hr, houter⟩
      rw [steps, step_inside hopen]
      exact (ih (s.step r).2).cons hopen

/-- Cutting off the next `n` octets opens a reader that does what one does that was opened over
    these octets and nothing else. The readers around it go on right after them. -/
structure CutsOff (s : ReaderStack) (n : Nat) : Prop where
  opens : s.step (.split n) =
    (.ok .none, (start (s.top.rest.take n)).inside ⟨s.top.advance n, s.outer⟩)
  visit : ∀ rs, Visit (start (s.top.rest.take n)) ⟨s.top.advance n, s.outer⟩ rs
    ((s.step (.split n)).2.steps rs)

theorem cutsOff {n : Nat} (h : n ≤ s.top.remaining) : s.CutsOff n where
  opens := step_split_of_le h
  visit rs := by
    rw [step_split_of_le h]
    exact visit_inside _ _ rs

end ReaderStack

/-! ## The two together -/

/-- Readers keep to their octets, whatever steps they take. Each step of a run is one that the
    windows of the readers allow: it answers the next octets and passes them, or requests more than
    remain, reports both numbers and changes nothing. What every open reader has passed and what it
    has to come add up to what it was opened over. And a reader that is cut off does all that one
    does that was opened over its octets alone, while the one that it was cut from goes on right
    after them. -/
theorem readers_keep_to_their_octets (data : Octets) (rs : List ReadStep) :
    (Nest.start data).readers = .start data ∧
      (∃ run, (Nest.start data).Run rs run ∧
        (ReaderStack.start data).steps rs = run.map (fun a => (a.1, a.2.readers)) ∧
        ∀ ws ∈ Nest.start data :: run.map Prod.snd, ∀ w ∈ ws.windows,
          w.cursor.pos + w.cursor.remaining = w.data.length) ∧
      ∀ (s : ReaderStack) (n : Nat), n ≤ s.top.remaining → s.CutsOff n := by
  obtain ⟨run, hrun, hsteps⟩ := (Nest.start data).exists_run rs
  exact ⟨rfl, ⟨run, hrun, hsteps, fun _ _ w _ => w.pos_add_remaining⟩,
    fun _ _ => ReaderStack.cutsOff⟩

/-- A reader over two of five octets, which is asked for a third, and the one around it after
    that. -/
theorem readers_keep_to_two_of_five :
    2 ≤ (ReaderStack.start [1, 2, 3, 4, 5]).top.remaining ∧
      (ReaderStack.start [1, 2, 3, 4, 5]).CutsOff 2 ∧
      (ReaderStack.start [1, 2, 3, 4, 5]).results
          [.split 2, .u16, .u8, .pop, .peekU16, .octets 4, .rest] =
        [.ok .none, .ok (.number 2 0x0102), .error (.endOfInput 1 0), .ok .none,
          .ok (.number 2 0x0304), .error (.endOfInput 4 3), .ok (.octets [3, 4, 5])] :=
  ⟨by decide, (readers_keep_to_their_octets [1, 2, 3, 4, 5] []).2.2 _ 2 (by decide), rfl⟩

end OpenFlow
