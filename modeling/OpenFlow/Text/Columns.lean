set_option autoImplicit false

/-! # Columns

Text that is filled up with spaces to a width; text that is wider stays as it is. -/

namespace OpenFlow.Text

/-- Spaces that bring a text up to a width. -/
def fill (width : Nat) (s : String) : String :=
  String.ofList (List.replicate (width - s.length) ' ')

/-- A text at the left of its column. -/
def padRight (width : Nat) (s : String) : String := s ++ fill width s

/-- A text at the right of its column. -/
def padLeft (width : Nat) (s : String) : String := fill width s ++ s

end OpenFlow.Text
