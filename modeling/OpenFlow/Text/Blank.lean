set_option autoImplicit false

/-! # Blanks

Blanks separate words. What is blank is the `White_Space` property of Unicode: twenty-five
characters, among them the ends of lines, the no-break space and the spaces of fixed widths. -/

namespace OpenFlow.Text

/-- The characters with the `White_Space` property, as ranges of code points. -/
def blankRanges : List (Nat × Nat) :=
  [(0x9, 0xd), (0x20, 0x20), (0x85, 0x85), (0xa0, 0xa0), (0x1680, 0x1680), (0x2000, 0x200a),
    (0x2028, 0x2029), (0x202f, 0x202f), (0x205f, 0x205f), (0x3000, 0x3000)]

/-- A character lies in one of some ranges of code points. -/
def inRanges (ranges : List (Nat × Nat)) (c : Char) : Bool :=
  ranges.any fun (first, last) => first ≤ c.toNat && c.toNat ≤ last

/-- Whether a character is blank. -/
def isBlank (c : Char) : Bool := inRanges blankRanges c

/-- Puts a character before the pieces of what follows it: a blank begins a new piece, any other
    character belongs to the first. -/
def addToPieces (c : Char) (pieces : List (List Char)) : List (List Char) :=
  if isBlank c then [] :: pieces
  else match pieces with
    | [] => [[c]]
    | piece :: pieces => (c :: piece) :: pieces

/-- The pieces of a text between its blanks; a piece may be empty. -/
def pieces (cs : List Char) : List (List Char) := cs.foldr addToPieces [[]]

/-- The words of a text: its pieces that are not empty. -/
def words (cs : List Char) : List (List Char) := (pieces cs).filter (!·.isEmpty)

end OpenFlow.Text
