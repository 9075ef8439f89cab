import OpenFlow.Text.Hexadecimal

set_option autoImplicit false

/-! # JSON

Reports for other programs are written as JSON, one member or item a line, indented by two spaces
for each level. -/

namespace OpenFlow.Text

/-- A JSON value; numbers are natural. -/
inductive Json where
  | null
  | number (n : Nat)
  | text (s : String)
  | items (values : List Json)
  | members (values : List (String × Json))

namespace Json

/-- A text, or null. -/
def optional : Option String → Json
  | some s => text s
  | none => null

/-- A character as it stands in a string. -/
def escape : Char → String
  | '"' => "\\\""
  | '\\' => "\\\\"
  | '\n' => "\\n"
  | '\r' => "\\r"
  | '\t' => "\\t"
  | '\x08' => "\\b"
  | '\x0c' => "\\f"
  | c =>
    if c.toNat < 0x20 then "\\u00" ++ hexOctet (UInt8.ofNat c.toNat) else String.singleton c

/-- A string. -/
def quote (s : String) : String := "\"" ++ String.join (s.toList.map escape) ++ "\""

/-- The beginning of a line at a level. -/
def newLine (level : Nat) : String := "\n" ++ String.ofList (List.replicate (2 * level) ' ')

/-- The lines of the values inside brackets, which stand alone when there is nothing inside. -/
def enclose (level : Nat) (left : String) (lines : List String) (right : String) : String :=
  match lines with
  | [] => left ++ right
  | _ =>
    let inner := newLine (level + 1)
    left ++ inner ++ ("," ++ inner).intercalate lines ++ newLine level ++ right

mutual

/-- The text of a value whose first line begins at a level. -/
def render (level : Nat) : Json → String
  | null => "null"
  | number n => toString n
  | text s => quote s
  | items values => enclose level "[" (renderItems (level + 1) values) "]"
  | members values => enclose level "\x7b" (renderMembers (level + 1) values) "\x7d"

/-- The texts of items. -/
def renderItems (level : Nat) : List Json → List String
  | [] => []
  | value :: values => render level value :: renderItems level values

/-- The texts of members. -/
def renderMembers (level : Nat) : List (String × Json) → List String
  | [] => []
  | (name, value) :: values =>
    (quote name ++ ": " ++ render level value) :: renderMembers level values

end

/-- The text of a value. -/
def pretty (value : Json) : String := render 0 value

end Json

end OpenFlow.Text
