import OpenFlow.Capture.Command
import OpenFlow.Capture.Decoding
import OpenFlow.Capture.Inspection
import OpenFlow.Capture.Source
import OpenFlow.Text.Glob.Matching

set_option autoImplicit false

/-! # Running commands

What a command writes, given what its path leads to. A capture in a directory that cannot be
inspected is reported in its place and the next one follows; a capture that cannot be read ends the
command, and what was written before stays. -/

namespace OpenFlow

/-- What a run of the program comes to. -/
structure Outcome where
  code : Nat
  output : String
  errors : String
  deriving DecidableEq, Repr

namespace Outcome

/-- A run that came to its end, with the lines that it wrote. -/
def success (lines : List String) : Outcome := ⟨0, String.join (lines.map (· ++ "\n")), ""⟩

/-- The lines that tell causes from the outside in: numbered, if there are several. -/
def causeLines : List String → List String
  | [cause] => ["    " ++ cause]
  | causes => causes.zipIdx.map fun (cause, n) => "    " ++ toString n ++ ": " ++ cause

/-- The text that an error ends a run with. -/
def errorText (messages : List String) : String :=
  match messages with
  | [] => ""
  | outermost :: causes =>
    let head := "Error: " ++ outermost ++ "\n"
    if causes.isEmpty then head
    else head ++ "\nCaused by:\n" ++ String.join ((causeLines causes).map (· ++ "\n"))

/-- A run that ended early, with the lines that it wrote before. -/
def failure (lines : List String) (e : CaptureError) : Outcome :=
  { success lines with code := 1, errors := errorText e.messages }

end Outcome

namespace Command

/-- The octets of a capture in a file, which holds them as they are or as hexadecimal text. -/
def capture (asHex : Bool) (path : String) (file : Source) : Except CaptureError Octets := do
  let octets ← file.contents.mapError (.unreadable path)
  if asHex then
    match String.fromUTF8? ⟨octets.toArray⟩ with
    | some text => (HexText.octets text).mapError (.hexFile path)
    | none => throw (.unreadable path "stream did not contain valid UTF-8")
  else return octets

/-! ## Files of a directory -/

/-- The pattern of a command, which must be one. -/
def pattern (pattern? : Option String) : Except CaptureError (Option Text.Glob) :=
  match pattern? with
  | none => .ok none
  | some text => ((Text.Glob.ofString? text).map some).mapError .badPattern

/-- A pattern takes in the path of a file or its name; no pattern takes in all. -/
def selects (glob? : Option Text.Glob) (directory name : String) : Bool :=
  match glob? with
  | none => true
  | some glob => glob.matching (joinPath directory name) || glob.matching name

/-- How many captures of a directory are inspected at most, when they are put in the order of their
    sizes and no number is asked for. -/
def sortedLimit : Nat := 10

/-- The files to inspect: those that a pattern takes in, in the order of their names or, before
    that, of their sizes, the largest first; cut off after a number of them. -/
def chosen (glob? : Option Text.Glob) (bySize : Bool) (limit? : Option Nat) (directory : String)
    (files : List (String × Octets)) : List (String × Octets) :=
  let byName := (files.filter (selects glob? directory ·.1)).mergeSort (fun f g => f.1 ≤ g.1)
  if bySize then
    (byName.mergeSort (fun f g => g.2.length ≤ f.2.length)).take (limit?.getD sortedLimit)
  else match limit? with
    | some limit => byName.take limit
    | none => byName

/-- The lines on one capture of a directory. -/
def reportLines (family : CaptureFamily) (path : String) (size : Nat) (capture : Octets) :
    List String :=
  s!"== {path} ({size} bytes) ==" ::
    match Inspection.ofOctets family .standard capture with
    | .ok inspection => inspection.lines
    | .error e => ["error: " ++ e.message]

/-- Inspects files of a directory in order, after the lines written before. -/
def inspectFiles (family : CaptureFamily) (asHex : Bool) (directory : String)
    (written : List String) : List (String × Octets) → Outcome
  | [] => .success written
  | (name, octets) :: files =>
    let path := joinPath directory name
    match capture asHex path (.file octets) with
    | .ok bs =>
      inspectFiles family asHex directory
        (written ++ reportLines family path octets.length bs) files
    | .error e => .failure written e

/-! ## Commands -/

/-- The lines that a decoding is written as. -/
def decodingLines (format : DecodingFormat) (d : Decoding) : List String :=
  match format with
  | .json => [d.toJson.pretty]
  | .pretty => d.lines

/-- The run that ends with lines or an error, before which nothing was written. -/
def outcome : Except CaptureError (List String) → Outcome
  | .ok lines => .success lines
  | .error e => .failure [] e

/-- Runs a command whose path leads to `source`. -/
def run (command : Command) (source : Source) : Outcome :=
  match command, source with
  | .inspect path family asHex pattern? bySize limit?, .directory files =>
    match pattern pattern? with
    | .ok glob? => inspectFiles family asHex path [] (chosen glob? bySize limit? path files)
    | .error e => .failure [] e
  | .inspect path _ _ pattern? .., .unlisted reason => outcome do
    let _ ← pattern pattern?
    throw (.unlisted path reason)
  | .inspect path family asHex .., _ => outcome do
    let bs ← capture asHex path source
    return (← Inspection.ofOctets family .standard bs).lines
  | .decode path family asHex format, _ => outcome do
    let bs ← capture asHex path source
    return decodingLines format (← Decoding.ofOctets family .standard bs)

end Command

namespace CommandLine

/-- The text that tells how the program is used. -/
def usage : String :=
  "Usage: ofwire-tools [-v] inspect PATH --as FAMILY [--hex] [--glob PATTERN] [--sort size]\n"
    ++ "                          [--limit COUNT]\n"
    ++ "       ofwire-tools [-v] decode PATH --as FAMILY [--hex] [--format json|pretty]\n"
    ++ "Families: " ++ ", ".intercalate (CaptureFamily.all.map CaptureFamily.name) ++ "\n"

/-- What the program does when there is no command to run. -/
def Stop.outcome : Stop → Outcome
  | .misuse => ⟨2, "", usage⟩
  | .help => ⟨0, usage, ""⟩
  | .version => ⟨0, "ofwire-tools 0.1.0\n", ""⟩

end CommandLine

end OpenFlow
