set_option autoImplicit false

/-! # Globs

Patterns for paths. `?` stands for any character, `*` for any run of characters, slashes among them,
and `**`, which has to be a whole component of the path, for any number of whole components. A class
in brackets stands for one of its characters or ranges, or after an exclamation mark for any other;
its first character may be the closing bracket. -/

namespace OpenFlow.Text

/-- A member of a class. -/
inductive Glob.Member where
  | single (c : Char)
  | range (first last : Char)
  deriving DecidableEq, Repr

/-- A piece of a pattern. -/
inductive Glob.Piece where
  | literal (c : Char)
  | anyChar
  | oneOf (members : List Glob.Member)
  | noneOf (members : List Glob.Member)
  /-- Any run of characters. -/
  | anyRun
  /-- Any number of whole components. -/
  | anyComponents
  deriving DecidableEq, Repr

/-- What is wrong with a pattern. -/
inductive Glob.Fault where
  | tooManyStars
  /-- Two stars that are not a whole component. -/
  | brokenComponent
  | brokenClass
  deriving DecidableEq, Repr

/-- Why a text is no pattern, and the place of the character where this was found. -/
structure Glob.Error where
  place : Nat
  fault : Glob.Fault
  deriving DecidableEq, Repr

/-- A pattern. -/
structure Glob where
  pieces : List Glob.Piece
  deriving DecidableEq, Repr

namespace Glob

/-- The wording of a fault. -/
def Fault.message : Fault → String
  | .tooManyStars => "wildcards are either regular `*` or recursive `**`"
  | .brokenComponent => "recursive wildcards must form a single path component"
  | .brokenClass => "invalid range pattern"

/-- The wording of an error. -/
def Error.message (e : Error) : String :=
  s!"Pattern syntax error near position {e.place}: {e.fault.message}"

/-! ## Reading patterns -/

/-- The members of a class. -/
def members : List Char → List Member
  | first :: '-' :: last :: cs => .range first last :: members cs
  | c :: cs => .single c :: members cs
  | [] => []

/-- The characters up to a closing bracket, and those after it. -/
def closeClass? (cs : List Char) : Option (List Char × List Char) :=
  match cs.dropWhile (· != ']') with
  | _ :: rest => some (cs.takeWhile (· != ']'), rest)
  | [] => none

/-- Reads a class after its opening bracket, and answers what follows it. -/
def readClass? : List Char → Option (Piece × List Char)
  | '!' :: c :: cs =>
    (closeClass? cs).map fun (inside, rest) => (.noneOf (members (c :: inside)), rest)
  | ['!'] => none
  | c :: cs =>
    (closeClass? cs).map fun (inside, rest) => (.oneOf (members (c :: inside)), rest)
  | [] => none

/-- Adds a piece for whole components before those read already, unless one is there to do. -/
def addComponents (read : List Piece) : List Piece :=
  match read with
  | .anyComponents :: _ :: _ => read
  | _ => .anyComponents :: read

theorem closeClass?_length {cs inside rest : List Char}
    (h : closeClass? cs = some (inside, rest)) : rest.length < cs.length := by
  have hd : (cs.dropWhile (· != ']')).length ≤ cs.length :=
    (List.dropWhile_suffix (· != ']')).length_le
  unfold closeClass? at h
  split at h
  · rename_i heq
    cases h
    rw [heq, List.length_cons] at hd
    omega
  · cases h

theorem readClass?_length {cs rest : List Char} {piece : Piece}
    (h : readClass? cs = some (piece, rest)) : rest.length < cs.length := by
  unfold readClass? at h
  split at h
  · obtain ⟨⟨inside, rest'⟩, hc, heq⟩ := Option.map_eq_some_iff.1 h
    have := closeClass?_length hc
    cases heq
    simp only [List.length_cons]
    omega
  · cases h
  · obtain ⟨⟨inside, rest'⟩, hc, heq⟩ := Option.map_eq_some_iff.1 h
    have := closeClass?_length hc
    cases heq
    simp only [List.length_cons]
    omega
  · cases h

/-- Reads pieces from the character at `place` on. `atStart` tells whether a component starts there;
    the pieces read before come last one first. -/
def readPieces (place : Nat) (atStart : Bool) (read : List Piece) :
    List Char → Except Error (List Piece)
  | [] => .ok read.reverse
  | '?' :: cs => readPieces (place + 1) false (.anyChar :: read) cs
  | '*' :: '*' :: '*' :: _ => .error ⟨place + 2, .tooManyStars⟩
  | '*' :: '*' :: cs =>
    if !atStart then .error ⟨place - 1, .brokenComponent⟩
    else match cs with
      | [] => .ok (addComponents read).reverse
      | '/' :: cs => readPieces (place + 3) true (addComponents read) cs
      | _ => .error ⟨place + 2, .brokenComponent⟩
  | '*' :: cs => readPieces (place + 1) false (.anyRun :: read) cs
  | '[' :: cs =>
    match h : readClass? cs with
    | some (piece, rest) =>
      have shorter : rest.length < cs.length := readClass?_length h
      readPieces (place + 1 + (cs.length - rest.length)) false (piece :: read) rest
    | none => .error ⟨place, .brokenClass⟩
  | c :: cs => readPieces (place + 1) (c == '/') (.literal c :: read) cs
termination_by cs => cs.length

/-- The pattern that a text is. -/
def ofString? (s : String) : Except Error Glob := do
  return ⟨← readPieces 0 true [] s.toList⟩

end Glob

end OpenFlow.Text
