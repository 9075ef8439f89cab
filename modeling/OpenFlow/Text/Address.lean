import OpenFlow.Octets.BigEndian
import OpenFlow.Text.Hexadecimal

set_option autoImplicit false

/-! # Internet addresses as text

An IPv4 address is four decimal numbers with points between them. An IPv6 address is eight
hexadecimal numbers with colons between them, of which the longest run of zeros, if it is of two
at least, is left out between two colons; of runs of one length the first is. An IPv6 address that
stands for an IPv4 address ends in the text of that. -/

namespace OpenFlow.Text

/-- An IPv4 address. -/
def ipv4Text (octets : Octets) : String :=
  ".".intercalate (octets.map fun b => toString b.toNat)

/-- The numbers of two octets each that an IPv6 address is made of. -/
def addressGroups : Octets → List Nat
  | a :: b :: rest => Octets.toNat [a, b] :: addressGroups rest
  | _ => []

/-- How many zeros in a row there are from an index on. -/
def zerosAt (groups : List Nat) (index : Nat) : Nat :=
  ((groups.drop index).takeWhile (· == 0)).length

/-- The index of the longest run of zeros; the first, if there are several. -/
def longestZeros (groups : List Nat) : Nat :=
  (List.range groups.length).foldl
    (fun best index => if zerosAt groups best < zerosAt groups index then index else best) 0

/-- Hexadecimal numbers with colons between them. -/
def groupsText (groups : List Nat) : String :=
  ":".intercalate (groups.map fun n => String.ofList (hexDigits n))

/-- An IPv6 address. -/
def ipv6Text (octets : Octets) : String :=
  let groups := addressGroups octets
  if groups.take 6 = [0, 0, 0, 0, 0, 0xffff] then "::ffff:" ++ ipv4Text (octets.drop 12)
  else
    let start := longestZeros groups
    let count := zerosAt groups start
    if 1 < count then
      groupsText (groups.take start) ++ "::" ++ groupsText (groups.drop (start + count))
    else groupsText groups

end OpenFlow.Text
