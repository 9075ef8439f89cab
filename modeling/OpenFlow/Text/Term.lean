set_option autoImplicit false

/-! # Terms

Values are shown as terms: a constructor with its arguments in parentheses, a constructor with named
parts in braces, and lists in brackets. -/

namespace OpenFlow.Text

/-- Things with a comma and a space between them. -/
def listed (items : List String) : String := ", ".intercalate items

/-- A constructor with arguments. -/
def applied (name : String) (arguments : List String) : String :=
  name ++ "(" ++ listed arguments ++ ")"

/-- A constructor with named parts; without any, only its name. -/
def structured (name : String) (parts : List (String × String)) : String :=
  match parts.map fun (part, value) => part ++ ": " ++ value with
  | [] => name
  | texts => name ++ " \x7b " ++ listed texts ++ " \x7d"

/-- A list. -/
def bracketed (items : List String) : String := "[" ++ listed items ++ "]"

/-- A name of words with underscores between them as the name of a constructor: each word begins
    with a capital letter, and there is nothing between them. -/
def constructorName (name : String) : String :=
  String.join ((name.splitOn "_").map String.capitalize)

end OpenFlow.Text
