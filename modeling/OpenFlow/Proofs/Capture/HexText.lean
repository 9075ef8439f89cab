import OpenFlow.Capture.HexText

set_option autoImplicit false

/-! # What text is read as hexadecimal

By the book, a word of a capture has at most one marker, and without the markers the words put
together are pairs of digits and nothing else. What is read is more: markers may be repeated, and
of a pair the first character may be a plus sign. The main statement, `readsPlainly_iff`, says that
these are the only differences: a text by the book is read, as the octets that its pairs stand for,
and a text that is read is by the book unless one of its words has two markers or one of its pairs
a sign. -/

namespace OpenFlow.HexText

/-! ## Pairs -/

/-- Characters in pairs, and the octets that the pairs stand for. -/
inductive Pairs (value? : Char → Char → Option UInt8) : List Char → Octets → Prop
  | nil : Pairs value? [] []
  | cons {high low : Char} {b : UInt8} {cs : List Char} {bs : Octets} :
      value? high low = some b → Pairs value? cs bs → Pairs value? (high :: low :: cs) (b :: bs)

/-- The octet that two hexadecimal digits stand for. -/
def digitsValue? (high low : Char) : Option UInt8 := do
  return UInt8.ofNat ((← Text.hexValue? high) * 16 + (← Text.hexValue? low))

/-- Whether a character is a hexadecimal digit. -/
def IsDigit (c : Char) : Prop := ∃ n, Text.hexValue? c = some n

/-- A digit is one of twenty-two characters. -/
theorem IsDigit.bounds {c : Char} (h : IsDigit c) :
    ('0' ≤ c ∧ c ≤ '9') ∨ ('a' ≤ c ∧ c ≤ 'f') ∨ ('A' ≤ c ∧ c ≤ 'F') := by
  obtain ⟨n, h⟩ := h
  unfold Text.hexValue? at h
  split at h
  · exact .inl ‹_›
  split at h
  · exact .inr (.inl ‹_›)
  split at h
  · exact .inr (.inr ‹_›)
  · cases h

theorem not_isDigit_x : ¬ IsDigit 'x' := by rintro ⟨n, h⟩; cases h

theorem not_isDigit_plus : ¬ IsDigit '+' := by rintro ⟨n, h⟩; cases h

/-- Digits are characters of ASCII. -/
theorem IsDigit.utf8Size_eq_one {c : Char} (h : IsDigit c) : c.utf8Size = 1 := by
  rw [Char.utf8Size_eq_one_iff]
  rcases h.bounds with ⟨-, h⟩ | ⟨-, h⟩ | ⟨-, h⟩ <;> exact UInt32.le_trans h (by decide)

theorem digitsValue?_eq_some {high low : Char} {b : UInt8} (h : digitsValue? high low = some b) :
    IsDigit high ∧ IsDigit low := by
  simp only [digitsValue?, Option.bind_eq_bind, Option.bind_eq_some_iff] at h
  obtain ⟨m, hm, n, hn, -⟩ := h
  exact ⟨⟨m, hm⟩, n, hn⟩

/-- Without a sign, a pair stands for what its two digits do. -/
theorem pairValue?_of_ne_plus {high : Char} (low : Char) (h : high ≠ '+') :
    pairValue? high low = digitsValue? high low := by
  unfold pairValue? digitsValue?
  cases Text.hexValue? low <;> cases Text.hexValue? high <;> simp [h]

theorem pairValue?_eq_some {high low : Char} {b : UInt8} (h : pairValue? high low = some b) :
    (high = '+' ∨ IsDigit high) ∧ IsDigit low := by
  by_cases hp : high = '+'
  · refine ⟨.inl hp, ?_⟩
    simp only [pairValue?, Option.bind_eq_bind, Option.bind_eq_some_iff] at h
    obtain ⟨n, hn, -⟩ := h
    exact ⟨n, hn⟩
  · rw [pairValue?_of_ne_plus low hp] at h
    exact (digitsValue?_eq_some h).imp .inr id

theorem pairValue?_of_digitsValue? {high low : Char} {b : UInt8}
    (h : digitsValue? high low = some b) : pairValue? high low = some b := by
  rw [pairValue?_of_ne_plus, h]
  rintro rfl
  exact not_isDigit_plus (digitsValue?_eq_some h).1

/-- The characters of a pair that stands for an octet take one octet each. -/
theorem utf8Size_of_pairValue? {high low : Char} {b : UInt8} (h : pairValue? high low = some b) :
    high.utf8Size = 1 ∧ low.utf8Size = 1 := by
  obtain ⟨rfl | hh, hl⟩ := pairValue?_eq_some h
  · exact ⟨rfl, hl.utf8Size_eq_one⟩
  · exact ⟨hh.utf8Size_eq_one, hl.utf8Size_eq_one⟩

namespace Pairs

/-- Two characters or more are pairs if the first two stand for an octet and the others are
    pairs. -/
theorem cons_iff {v : Char → Char → Option UInt8} {high low : Char} {cs : List Char}
    {bs : Octets} :
    Pairs v (high :: low :: cs) bs ↔
      ∃ b more, v high low = some b ∧ Pairs v cs more ∧ bs = b :: more := by
  constructor
  · rintro (_ | ⟨hv, hcs⟩)
    exact ⟨_, _, hv, hcs, rfl⟩
  · rintro ⟨b, more, hv, hcs, rfl⟩
    exact .cons hv hcs

theorem imp {v w : Char → Char → Option UInt8} {cs : List Char} {bs : Octets}
    (hvw : ∀ high ∈ cs, ∀ low b, v high low = some b → w high low = some b)
    (h : Pairs v cs bs) : Pairs w cs bs := by
  induction h with
  | nil => exact .nil
  | @cons high low b cs bs hv _ ih =>
    refine .cons (hvw high (by simp) low b hv) (ih fun c hc => hvw c ?_)
    simp [hc]

/-- Characters that are pairs of digits are digits. -/
theorem isDigit {cs : List Char} {bs : Octets} (h : Pairs digitsValue? cs bs) :
    ∀ c ∈ cs, IsDigit c := by
  induction h with
  | nil => simp
  | cons hv _ ih =>
    obtain ⟨hh, hl⟩ := digitsValue?_eq_some hv
    simpa [hh, hl] using ih

/-- Pairs take up an even number of octets, whatever they stand for. -/
theorem sizeInOctets_even {cs : List Char} {bs : Octets} (h : Pairs pairValue? cs bs) :
    sizeInOctets cs % 2 = 0 := by
  induction h with
  | nil => rfl
  | @cons high low _ cs _ hv _ ih =>
    obtain ⟨hh, hl⟩ := utf8Size_of_pairValue? hv
    have hs : sizeInOctets (high :: low :: cs) = 1 + (1 + sizeInOctets cs) := by
      simp [sizeInOctets, hh, hl]
    omega

end Pairs

/-! ## Reading -/

/-- Reading pairs puts the octets that they stand for after those read before, and it is only pairs
    that it reads. -/
theorem readPairs_eq_ok_iff (read : Octets) (cs : List Char) (bs : Octets) :
    readPairs read cs = .ok bs ↔ ∃ more, Pairs pairValue? cs more ∧ bs = read.reverse ++ more := by
  fun_induction readPairs read cs with
  | case1 read =>
    constructor
    · rintro ⟨⟩
      exact ⟨[], .nil, by simp⟩
    · rintro ⟨more, ⟨⟩, rfl⟩
      simp
  | case2 read c =>
    refine iff_of_false nofun ?_
    rintro ⟨more, ⟨⟩, -⟩
  -- a pair that stands for an octet is of characters of one octet each
  | case3 read c d cs hc =>
    refine iff_of_false nofun ?_
    rintro ⟨_, hm, -⟩
    obtain ⟨b, more, hv, -⟩ := Pairs.cons_iff.mp hm
    have := (utf8Size_of_pairValue? hv).1
    omega
  | case4 read c d cs _ hcd =>
    refine iff_of_false nofun ?_
    rintro ⟨_, hm, -⟩
    obtain ⟨b, more, hv, -⟩ := Pairs.cons_iff.mp hm
    have := utf8Size_of_pairValue? hv
    omega
  | case5 read c d cs _ _ b hb ih =>
    rw [ih]
    constructor
    · rintro ⟨more, hm, rfl⟩
      exact ⟨b :: more, .cons hb hm, by simp⟩
    · rintro ⟨_, hm, rfl⟩
      obtain ⟨b', more, hv, hcs, rfl⟩ := Pairs.cons_iff.mp hm
      obtain rfl : b = b' := Option.some.inj (hb.symm.trans hv)
      exact ⟨more, hcs, by simp⟩
  | case6 read c d cs _ _ hb =>
    refine iff_of_false nofun ?_
    rintro ⟨_, hm, -⟩
    obtain ⟨b, more, hv, -⟩ := Pairs.cons_iff.mp hm
    simp [hb] at hv

/-- What is read is the pairs of a text, where the first of a pair may be a sign. -/
theorem octets_eq_ok_iff (text : String) (bs : Octets) :
    octets text = .ok bs ↔ Pairs pairValue? (digits text.toList) bs := by
  have hread : readPairs [] (digits text.toList) = .ok bs ↔
      Pairs pairValue? (digits text.toList) bs := by
    simp [readPairs_eq_ok_iff]
  unfold octets
  dsimp only
  split
  · next hodd => exact iff_of_false nofun fun h => hodd h.sizeInOctets_even
  · exact hread

/-! ## Markers -/

/-- A word without the one marker that it may begin with. -/
def dropMarker : List Char → List Char
  | '0' :: 'x' :: cs => cs
  | cs => cs

/-- The digits of a text by the book: its words, each without one marker, put together. -/
def plainDigits (cs : List Char) : List Char := (Text.words cs).flatMap dropMarker

/-- A word begins with a marker. -/
def Marked (w : List Char) : Prop := ['0', 'x'] <+: w

/-- A word begins with two markers. -/
def DoublyMarked (w : List Char) : Prop := Marked (dropMarker w) ∧ Marked w

theorem dropMarkers_of_not_marked {w : List Char} (h : ¬ Marked w) : dropMarkers w = w := by
  unfold dropMarkers
  split
  · exact absurd ⟨_, rfl⟩ h
  · rfl

/-- Dropping every marker is dropping one unless there are two. -/
theorem dropMarkers_of_not_doublyMarked {w : List Char} (h : ¬ DoublyMarked w) :
    dropMarkers w = dropMarker w := by
  by_cases hw : Marked w
  · obtain ⟨cs, rfl⟩ := hw
    exact dropMarkers_of_not_marked (w := cs) fun hcs => h ⟨hcs, cs, rfl⟩
  · rw [dropMarkers_of_not_marked hw]
    unfold dropMarker
    split
    · exact absurd ⟨_, rfl⟩ hw
    · rfl

theorem digits_eq_plainDigits {cs : List Char} (h : ∀ w ∈ Text.words cs, ¬ DoublyMarked w) :
    digits cs = plainDigits cs := by
  unfold digits plainDigits
  rw [List.flatMap_def, List.flatMap_def,
    List.map_congr_left fun w hw => dropMarkers_of_not_doublyMarked (h w hw)]

/-- A second marker is left over, and it is no digit. -/
theorem not_doublyMarked {cs : List Char} (h : ∀ c ∈ plainDigits cs, IsDigit c) :
    ∀ w ∈ Text.words cs, ¬ DoublyMarked w := by
  rintro w hw ⟨⟨rest, hrest⟩, -⟩
  refine not_isDigit_x (h 'x' (List.mem_flatMap.mpr ⟨w, hw, ?_⟩))
  simp [← hrest]

/-! ## Texts by the book -/

/-- A text is read if and only if it is pairs of digits by the book, and as what these stand for. -/
def ReadsPlainly (text : String) : Prop :=
  ∀ bs, octets text = .ok bs ↔ Pairs digitsValue? (plainDigits text.toList) bs

/-- A text by the book has neither two markers on a word nor a sign among its digits. -/
theorem Pairs.clean {cs : List Char} {bs : Octets} (h : Pairs digitsValue? (plainDigits cs) bs) :
    (∀ w ∈ Text.words cs, ¬ DoublyMarked w) ∧ '+' ∉ digits cs := by
  have hw := not_doublyMarked h.isDigit
  refine ⟨hw, fun hp => not_isDigit_plus (h.isDigit _ ?_)⟩
  rwa [← digits_eq_plainDigits hw]

/-- A text by the book is read as the octets that its pairs stand for. -/
theorem octets_of_plain {text : String} {bs : Octets}
    (h : Pairs digitsValue? (plainDigits text.toList) bs) : octets text = .ok bs := by
  rw [octets_eq_ok_iff, digits_eq_plainDigits h.clean.1]
  exact h.imp fun _ _ _ _ => pairValue?_of_digitsValue?

/-- What is read without a second marker and without a sign is by the book. -/
theorem plain_of_octets {text : String} {bs : Octets} (h : octets text = .ok bs)
    (hw : ∀ w ∈ Text.words text.toList, ¬ DoublyMarked w) (hp : '+' ∉ digits text.toList) :
    Pairs digitsValue? (plainDigits text.toList) bs := by
  rw [octets_eq_ok_iff] at h
  rw [← digits_eq_plainDigits hw]
  refine h.imp fun high hmem low b hv => ?_
  rwa [← pairValue?_of_ne_plus low fun hh => hp (hh ▸ hmem)]

/-- What a text is read as, and how far that is by the book: any text by the book is read as what
    its pairs stand for; and of the others exactly those are read that become pairs once all markers
    are dropped and a sign may stand for the first digit of a pair. -/
theorem readsPlainly_iff (text : String) :
    (∀ bs, Pairs digitsValue? (plainDigits text.toList) bs → octets text = .ok bs) ∧
      (∀ bs, octets text = .ok bs ↔ Pairs pairValue? (digits text.toList) bs) ∧
      (ReadsPlainly text ↔ ∀ bs, octets text = .ok bs →
        (∀ w ∈ Text.words text.toList, ¬ DoublyMarked w) ∧ '+' ∉ digits text.toList) := by
  refine ⟨fun bs => octets_of_plain, octets_eq_ok_iff text, fun h bs hbs => ?_, fun h bs => ?_⟩
  · exact ((h bs).mp hbs).clean
  · exact ⟨fun hbs => plain_of_octets hbs (h bs hbs).1 (h bs hbs).2, octets_of_plain⟩

example : octets "0x0 a1 2\n0xFf" = .ok [0x0a, 0x12, 0xff] := rfl

/-- A word with two markers and a pair with a sign are read, and neither is by the book. -/
theorem not_readsPlainly_doubly_marked_and_signed :
    (octets "0x0x12" = .ok [0x12] ∧ ¬ Pairs digitsValue? (plainDigits "0x0x12".toList) [0x12]) ∧
      (octets "+f" = .ok [0x0f] ∧ ¬ Pairs digitsValue? (plainDigits "+f".toList) [0x0f]) := by
  refine ⟨⟨rfl, fun h => not_isDigit_x (h.isDigit 'x' (by decide))⟩,
    rfl, fun h => not_isDigit_plus (h.isDigit '+' (by decide))⟩

end OpenFlow.HexText
