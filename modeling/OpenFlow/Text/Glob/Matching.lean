import OpenFlow.Text.Glob

set_option autoImplicit false

/-! # Matching globs

`Glob.accepts` says what a pattern takes in, by trying every way to split a text among its pieces;
there may be exponentially many. A glob is therefore matched by the rows of a table, one for each
run of last pieces. A row tells of every suffix of the text whether those pieces take it in, and it
follows from the row below it in one pass. `Glob.matching_eq_accepts` says that both agree. -/

namespace OpenFlow.Text.Glob

/-! ## What a pattern takes in -/

/-- A member takes in a character. -/
def Member.takes : Member → Char → Bool
  | single c, c' => c == c'
  | range first last, c => first ≤ c && c ≤ last

/-- A piece for one character takes in a character. -/
def Piece.takes : Piece → Char → Bool
  | literal c, c' => c == c'
  | anyChar, _ => true
  | oneOf members, c => members.any (·.takes c)
  | noneOf members, c => !members.any (·.takes c)
  | anyRun, _ | anyComponents, _ => false

/-- What is left of a text after any number of its characters. -/
def suffixes : List Char → List (List Char)
  | [] => [[]]
  | c :: cs => (c :: cs) :: suffixes cs

/-- What is left of a text after any number, not zero, of its components; after the last, nothing
    is. -/
def afterComponents : List Char → List (List Char)
  | [] => [[]]
  | c :: cs => if c == '/' then cs :: afterComponents cs else afterComponents cs

/-- The pieces take in a text as a whole. -/
def accepts : List Piece → List Char → Bool
  | [], cs => cs.isEmpty
  | .anyRun :: pieces, cs => (suffixes cs).any (accepts pieces)
  | .anyComponents :: pieces, cs => accepts pieces cs || (afterComponents cs).any (accepts pieces)
  | _ :: _, [] => false
  | piece :: pieces, c :: cs => piece.takes c && accepts pieces cs

/-! ## Rows

A row holds one entry for each suffix of a text, the longest first: what some test answers there. -/

/-- The row that holds where a row holds there or later. -/
def fromHere : List Bool → List Bool
  | [] => []
  | b :: row =>
    let later := fromHere row
    (b || later.headD false) :: later

/-- The row that holds where a row holds after one of the components that are left, or at the
    end. -/
def fromLaterComponent : List Char → List Bool → List Bool
  | [], row => row
  | c :: cs, row =>
    let later := fromLaterComponent cs row.tail
    (c == '/' && row.tail.headD false || later.headD false) :: later

/-- The row that holds where a piece takes in a character and a row holds after it. -/
def afterCharacter (piece : Piece) : List Char → List Bool → List Bool
  | [], _ => [false]
  | c :: cs, row => (piece.takes c && row.tail.headD false) :: afterCharacter piece cs row.tail

/-- The row that tells which suffixes of a text the pieces take in. -/
def row (cs : List Char) : List Piece → List Bool
  | [] => (suffixes cs).map List.isEmpty
  | .anyRun :: pieces => fromHere (row cs pieces)
  | .anyComponents :: pieces =>
    let below := row cs pieces
    below.zipWith (· || ·) (fromLaterComponent cs below)
  | piece :: pieces => afterCharacter piece cs (row cs pieces)

/-- The pattern takes in a text as a whole. -/
def matching (g : Glob) (s : String) : Bool := (row s.toList g.pieces).headD false

/-! ## The rows are right -/

/-- A row starts with the answer for the whole text. -/
@[simp] theorem headD_map_suffixes (test : List Char → Bool) (cs : List Char) :
    ((suffixes cs).map test).headD false = test cs := by
  cases cs <;> rfl

theorem fromHere_map_suffixes (test : List Char → Bool) (cs : List Char) :
    fromHere ((suffixes cs).map test) = (suffixes cs).map fun rest => (suffixes rest).any test := by
  induction cs with
  | nil => rfl
  | cons c cs ih =>
    simp only [suffixes, List.map_cons, fromHere, ih, headD_map_suffixes, List.any_cons]

theorem fromLaterComponent_map_suffixes (test : List Char → Bool) (cs : List Char) :
    fromLaterComponent cs ((suffixes cs).map test) =
      (suffixes cs).map fun rest => (afterComponents rest).any test := by
  induction cs with
  | nil => simp [suffixes, fromLaterComponent, afterComponents]
  | cons c cs ih =>
    simp only [suffixes, List.map_cons, fromLaterComponent, List.tail_cons, ih,
      headD_map_suffixes, afterComponents]
    by_cases hc : c = '/' <;> simp [hc]

theorem afterCharacter_map_suffixes (piece : Piece) (test : List Char → Bool) (cs : List Char) :
    afterCharacter piece cs ((suffixes cs).map test) = (suffixes cs).map fun
      | [] => false
      | c :: rest => piece.takes c && test rest := by
  induction cs with
  | nil => rfl
  | cons c cs ih =>
    simp only [suffixes, List.map_cons, afterCharacter, List.tail_cons, ih, headD_map_suffixes]

/-- Each entry of a row is what the pieces answer to that suffix. -/
theorem row_eq_map_accepts (cs : List Char) (pieces : List Piece) :
    row cs pieces = (suffixes cs).map (accepts pieces) := by
  induction pieces with
  | nil => rfl
  | cons piece pieces ih =>
    cases piece with
    | anyRun => exact (congrArg fromHere ih).trans (fromHere_map_suffixes _ cs)
    | anyComponents =>
      rw [row, ih, fromLaterComponent_map_suffixes, List.zipWith_map]
      simp only [List.zipWith_self]
      rfl
    | literal _ | anyChar | oneOf _ | noneOf _ =>
      rw [row, ih, afterCharacter_map_suffixes]
      · refine List.map_congr_left fun rest _ => ?_
        cases rest <;> rfl
      all_goals nofun

/-- A glob is matched as `accepts` says. -/
theorem matching_eq_accepts (g : Glob) (s : String) : g.matching s = accepts g.pieces s.toList := by
  rw [matching, row_eq_map_accepts, headD_map_suffixes]

end OpenFlow.Text.Glob
