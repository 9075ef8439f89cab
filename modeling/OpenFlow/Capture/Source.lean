import OpenFlow.Octets.BigEndian

set_option autoImplicit false

/-! # Where captures come from

A path leads to a file, to a directory, or to nothing that can be read. A `FileTree` holds files by
their paths and tells which of these it is; in it every directory can be opened. Around the tree
nothing is known but the directories above it, in which no file is seen. -/

namespace OpenFlow

/-- What a path leads to. -/
inductive Source where
  | file (octets : Octets)
  /-- The names of the files in a directory, and what they hold; directories in it are left out. -/
  | directory (files : List (String × Octets))
  /-- A directory that cannot be opened, for the reason given. -/
  | unlisted (reason : String)
  /-- Nothing that can be read, for the reason given. -/
  | unreadable (reason : String)
  deriving DecidableEq, Repr

namespace Source

/-- There is nothing at a path. -/
def missing : Source := .unreadable "No such file or directory (os error 2)"

/-- A path goes on after a file. -/
def belowFile : Source := .unreadable "Not a directory (os error 20)"

/-- A name is longer than names may be, or a path longer than paths. -/
def nameTooLong : Source := .unreadable "File name too long (os error 36)"

/-- What a file holds; a directory holds nothing that can be read. -/
def contents : Source → Except String Octets
  | .file octets => .ok octets
  | .directory _ => .error "Is a directory (os error 21)"
  | .unlisted reason | .unreadable reason => .error reason

end Source

/-- The components of a path; empty ones and those that stay in place do not count. -/
def pathComponents (path : String) : List String :=
  (path.splitOn "/").filter fun c => c != "" && c != "."

/-- The path of a name in a directory. -/
def joinPath (directory name : String) : String :=
  if directory.endsWith "/" then directory ++ name else directory ++ "/" ++ name

/-- The most octets that a name may have. -/
def maxNameLength : Nat := 255

/-- The most octets that a path may have. -/
def maxPathLength : Nat := 4095

/-- Files by the components of their paths, and directories, which hold nothing of their own. -/
structure FileTree where
  nodes : List (List String × Option Octets)
  deriving DecidableEq, Repr

namespace FileTree

/-- The tree with a file, in place of one that was there, or with a directory. -/
def put (t : FileTree) (components : List String) (node : Option Octets) : FileTree :=
  ⟨(components, node) :: t.nodes.filter (·.1 != components)⟩

/-- What stands at the end of a run of components. A directory is there when something is in it. -/
def node? (t : FileTree) (components : List String) : Option (Option Octets) :=
  match t.nodes.lookup components with
  | some node => some node
  | none =>
    if components.isEmpty || t.nodes.any (components.isPrefixOf ·.1) then some none else none

/-- The files right inside a directory. -/
def filesIn (t : FileTree) (components : List String) : List (String × Octets) :=
  t.nodes.filterMap fun (path, node) =>
    match path.getLast?, node with
    | some name, some octets => if path.dropLast = components then some (name, octets) else none
    | _, _ => none

/-- Follows components from a directory around the tree. -/
def followOutside : List String → Source
  | [] => .directory []
  | ".." :: rest => followOutside rest
  | c :: _ => if maxNameLength < c.utf8ByteSize then .nameTooLong else .missing

/-- Follows components from the directory at `place`, whose components come last one first. -/
def follow (t : FileTree) (place : List String) : List String → Source
  | [] => .directory (t.filesIn place.reverse)
  | ".." :: rest =>
    match place with
    | [] => followOutside rest
    | _ :: above => t.follow above rest
  | c :: rest =>
    if maxNameLength < c.utf8ByteSize then .nameTooLong
    else match t.node? (c :: place).reverse, rest with
      | none, _ => .missing
      | some none, _ => t.follow (c :: place) rest
      | some (some octets), [] => .file octets
      | some (some _), _ :: _ => .belowFile

/-- What a path leads to from the root of the tree. A path that starts with a slash leads around the
    tree, and a path to a file does not end in one. -/
def source (t : FileTree) (path : String) : Source :=
  if maxPathLength < path.utf8ByteSize then .nameTooLong
  else if path.startsWith "/" then followOutside (pathComponents path)
  else match t.follow [] (pathComponents path) with
    | .file octets => if path.endsWith "/" || path.endsWith "/." then .belowFile else .file octets
    | found => found

end FileTree

end OpenFlow
