import Mathlib.Logic.Function.Basic
import OpenFlow.Proofs.KeyedSet.Calls
import OpenFlow.Proofs.KeyedSet.Reading
import OpenFlow.Proofs.Recoding.Instruction

set_option autoImplicit false

/-! # A set is a finite map over whole runs

`Performs` says what a call does to a map from keys to entries, and what it answers, without a word
of how the entries are kept. A set does the same on every call (`KeyedSet.performs_iff`), and so on
every run of calls (`KeyedSet.proceeds_iff`). -/

namespace OpenFlow

/-! ## Maps -/

/-- A map from keys to entries. -/
abbrev Contents (α : Type) := Nat → Option α

section Contents

variable {α : Type} [Keyed α]

/-- The first entry of each key. -/
def firsts (as : List α) : Contents α := fun key => as.find? fun a => key == Keyed.key a

variable [Kinded α]

/-- What a call on the map `m` answers, and the map after it. -/
inductive Performs (m : Contents α) : SetCall α → SetAnswer α → Contents α → Prop where
  | ofList (as : List α) : Performs m (.ofList as) .done (firsts as)
  | insertFree {a : α} (hfree : m (Keyed.key a) = none) :
      Performs m (.insert a) (.stored a true) (Function.update m (Keyed.key a) (some a))
  | insertTaken {a old : α} (htaken : m (Keyed.key a) = some old) :
      Performs m (.insert a) (.stored old false) m
  | assignFree {a : α} (hfree : m (Keyed.key a) = none) : Performs m (.assign a) (.entry none) m
  | assignTaken {a old : α} (htaken : m (Keyed.key a) = some old) :
      Performs m (.assign a) (.entry (some old)) (Function.update m (Keyed.key a) (some a))
  | insertOrAssign (a : α) :
      Performs m (.insertOrAssign a) (.entry (m (Keyed.key a)))
        (Function.update m (Keyed.key a) (some a))
  | eraseMissing {kind : Kinded.Kind α} (hmissing : ∀ key a, m key = some a → Kinded.kind a ≠ kind) :
      Performs m (.erase kind) (.entry none) m
  | eraseFound {key : Nat} {a : α} (hfound : m key = some a)
      (hleast : ∀ key' b, m key' = some b → Kinded.kind b = Kinded.kind a → key ≤ key') :
      Performs m (.erase (Kinded.kind a)) (.entry (some a)) (Function.update m key none)
  | remove (key : Nat) : Performs m (.remove key) (.entry (m key)) (Function.update m key none)
  | retain (p : α → Bool) : Performs m (.retain p) .done fun key => (m key).filter p
  | extend (as : List α) : Performs m (.extend as) .done fun key => (m key).or (firsts as key)
  | clear : Performs m .clear .done fun _ => none
  | read {limits : Limits} {c c' : Cursor} {as : List α}
      (hreading : KeyedSet.Reading limits c (.ok as) c') :
      Performs m (.read limits c) (.read c') (firsts as)
  | readFailed {limits : Limits} {c c' : Cursor} {e : DecodeError}
      (hreading : KeyedSet.Reading (α := α) limits c (.error e) c') :
      Performs m (.read limits c) (.failed e c') m

/-- Calls on the map `m` one after the other: what each of them answers, and the map after it. -/
inductive Proceeds : Contents α → List (SetCall α) → List (SetAnswer α × Contents α) → Prop where
  | nil (m : Contents α) : Proceeds m [] []
  | cons {m m' : Contents α} {call : SetCall α} {answer : SetAnswer α} {calls : List (SetCall α)}
      {steps : List (SetAnswer α × Contents α)} (first : Performs m call answer m')
      (rest : Proceeds m' calls steps) : Proceeds m (call :: calls) ((answer, m') :: steps)

end Contents

namespace KeyedSet

variable {α : Type}

/-! ## Changes of the map of a set -/

theorem get?_put_eq_update (s : KeyedSet α) (key : Nat) (a : α) :
    (s.put key a).get? = Function.update s.get? key (some a) := by
  funext k
  rw [get?_put, Function.update_apply]

theorem get?_remove_eq_update (s : KeyedSet α) (key : Nat) :
    (s.remove key).2.get? = Function.update s.get? key none := by
  funext k
  rw [get?_remove, Function.update_apply]

section Keyed

variable [Keyed α]

theorem get?_extend_eq (s : KeyedSet α) (as : List α) :
    (s.extend as).get? = fun key => (s.get? key).or (firsts as key) :=
  funext fun key => get?_extend s as key

theorem get?_ofList_eq (as : List α) : (ofList as).get? = firsts as := by
  funext key
  rw [ofList, get?_extend, get?_empty, Option.none_or]
  rfl

/-! ## A call on a set is a call on its map -/

variable [Kinded α]

section Agreement

variable (hkinds : ∀ k l : Kinded.Kind α, Kinded.alike k l = true ↔ k = l)
  (hd : ∀ limits, (Record.decode limits : Decoder α).Consumes)

include hkinds hd

theorem performs_call (s : KeyedSet α) (c : SetCall α) :
    Performs s.get? c (s.call c).1 (s.call c).2.get? := by
  cases c with
  | ofList as =>
    show Performs _ _ .done (ofList as).get?
    rw [get?_ofList_eq]
    exact .ofList as
  | insert a =>
    cases hkey : s.get? (Keyed.key a) with
    | none =>
      simp only [call, insert_of_free hkey, get?_put_eq_update]
      exact .insertFree hkey
    | some old =>
      simp only [call, insert_of_taken hkey]
      exact .insertTaken hkey
  | assign a =>
    cases hkey : s.get? (Keyed.key a) with
    | none =>
      simp only [call, assign_of_free hkey]
      exact .assignFree hkey
    | some old =>
      simp only [call, assign_of_taken hkey, Prod.map, id, get?_put_eq_update]
      exact .assignTaken hkey
  | insertOrAssign a =>
    show Performs _ _ (.entry (s.get? (Keyed.key a))) (s.put (Keyed.key a) a).get?
    rw [get?_put_eq_update]
    exact .insertOrAssign a
  | erase kind =>
    rcases s.missing_or_isFirst fun a => Kinded.alike (Kinded.kind a) kind with
      hmissing | ⟨key, a, hfirst⟩
    · simp only [call, eraseFirst_of_missing hmissing]
      exact .eraseMissing fun key a hget heq => hmissing key a hget ((hkinds _ _).2 heq)
    · obtain rfl := (hkinds _ _).1 hfirst.holds
      simp only [call, eraseFirst_of_isFirst hfirst, Prod.map, id, get?_remove_eq_update]
      exact .eraseFound hfirst.under fun key' b hb heq =>
        hfirst.least key' b hb ((hkinds _ _).2 heq)
  | remove key =>
    show Performs _ _ (.entry (s.get? key)) (s.remove key).2.get?
    rw [get?_remove_eq_update]
    exact .remove key
  | retain p =>
    show Performs _ _ .done (s.retain p).get?
    rw [funext (get?_retain s p)]
    exact .retain p
  | extend as =>
    show Performs _ _ .done (s.extend as).get?
    rw [get?_extend_eq]
    exact .extend as
  | clear => exact .clear
  | read limits c =>
    rcases hrun : (decode limits : Decoder (KeyedSet α)).run c with ⟨answer, c'⟩
    obtain ⟨result, hreading, rfl⟩ := (run_decode_iff (hd limits)).1 hrun
    cases result with
    | error e =>
      simp only [call, hrun, Except.map]
      exact .readFailed hreading
    | ok as =>
      simp only [call, hrun, Except.map, get?_ofList_eq]
      exact .read hreading

/-- What may happen to the map of a set in a call does happen to the set. -/
theorem call_eq_of_performs {s : KeyedSet α} {c : SetCall α} {answer : SetAnswer α}
    {m : Contents α} (h : Performs s.get? c answer m) :
    (s.call c).1 = answer ∧ (s.call c).2.get? = m := by
  cases h with
  | ofList as => exact ⟨rfl, get?_ofList_eq as⟩
  | insertFree hfree =>
    simp only [call, insert_of_free hfree, get?_put_eq_update, and_self]
  | insertTaken htaken => simp only [call, insert_of_taken htaken, and_self]
  | assignFree hfree => simp only [call, assign_of_free hfree, Prod.map, id, and_self]
  | assignTaken htaken =>
    simp only [call, assign_of_taken htaken, Prod.map, id, get?_put_eq_update, and_self]
  | insertOrAssign a => exact ⟨rfl, get?_put_eq_update s _ a⟩
  | eraseMissing hmissing =>
    have herase := eraseFirst_of_missing (s := s) fun key a hget halike =>
      hmissing key a hget ((hkinds _ _).1 halike)
    simp only [call, herase, Prod.map, id, and_self]
  | @eraseFound key a hfound hleast =>
    have hfirst : s.IsFirst (fun b => Kinded.alike (Kinded.kind b) (Kinded.kind a)) key a :=
      ⟨hfound, (hkinds _ _).2 rfl, fun key' b hb halike => hleast key' b hb ((hkinds _ _).1 halike)⟩
    simp only [call, eraseFirst_of_isFirst hfirst, Prod.map, id, get?_remove_eq_update, and_self]
  | remove key => exact ⟨rfl, get?_remove_eq_update s key⟩
  | retain p => exact ⟨rfl, funext (get?_retain s p)⟩
  | extend as => exact ⟨rfl, get?_extend_eq s as⟩
  | clear => exact ⟨rfl, rfl⟩
  | @read limits _ _ as hreading =>
    have hrun := (run_decode_iff (hd limits)).2 ⟨_, hreading, rfl⟩
    simp only [call, hrun, Except.map, get?_ofList_eq, and_self]
  | @readFailed limits _ _ _ hreading =>
    have hrun := (run_decode_iff (hd limits)).2 ⟨_, hreading, rfl⟩
    simp only [call, hrun, Except.map, and_self]

theorem performs_iff {s : KeyedSet α} {c : SetCall α} {answer : SetAnswer α} {m : Contents α} :
    Performs s.get? c answer m ↔ (s.call c).1 = answer ∧ (s.call c).2.get? = m := by
  refine ⟨call_eq_of_performs hkinds hd, ?_⟩
  rintro ⟨rfl, rfl⟩
  exact performs_call hkinds hd s c

/-- A run of calls on a set is a run on its map. -/
theorem proceeds_iff {s : KeyedSet α} {cs : List (SetCall α)}
    {steps : List (SetAnswer α × Contents α)} :
    Proceeds s.get? cs steps ↔ (s.calls cs).map (Prod.map id get?) = steps := by
  induction cs generalizing s steps with
  | nil =>
    constructor
    · rintro ⟨⟩
      rfl
    · rintro rfl
      exact .nil _
  | cons c cs ih =>
    constructor
    · intro h
      cases h with
      | cons first rest =>
        obtain ⟨rfl, rfl⟩ := (performs_iff hkinds hd).1 first
        rw [← ih.1 rest]
        rfl
    · rintro rfl
      exact .cons (performs_call hkinds hd s c) (ih.2 rfl)

end Agreement

/-- Sets act as maps from keys to entries: run from the empty one, calls answer what they answer on
    a map and leave what they leave there, the sets in between are sound, and what comes to nothing
    changes nothing. -/
structure ActsAsMap (α : Type) [Keyed α] [Kinded α] : Prop where
  proceeds : ∀ (cs : List (SetCall α)) (steps : List (SetAnswer α × Contents α)),
    Proceeds (fun _ => none) cs steps ↔
      ((empty : KeyedSet α).calls cs).map (Prod.map id get?) = steps
  sound : ∀ (cs : List (SetCall α)), ∀ step ∈ (empty : KeyedSet α).calls cs, step.2.Sound
  idle : ∀ (s : KeyedSet α) (c : SetCall α), c.Idle (s.call c).1 → (s.call c).2 = s

theorem actsAsMap_of (hkinds : ∀ k l : Kinded.Kind α, Kinded.alike k l = true ↔ k = l)
    (hd : ∀ limits, (Record.decode limits : Decoder α).Consumes) : ActsAsMap α where
  proceeds _ _ := proceeds_iff (s := empty) hkinds hd
  sound := sound_of_mem_calls
  idle _ _ := call_of_idle

end Keyed

/-- Sets of actions, of instructions and of fields act as maps. -/
theorem actsAsMap : ActsAsMap Action ∧ ActsAsMap Instruction ∧ ActsAsMap Field := by
  refine ⟨?_, ?_, ?_⟩
  · exact actsAsMap_of (fun _ _ => beq_iff_eq) Action.consumes
  · exact actsAsMap_of (fun _ _ => beq_iff_eq) Instruction.consumes
  · exact actsAsMap_of (fun _ _ => beq_iff_eq) Field.consumes

end KeyedSet

end OpenFlow
