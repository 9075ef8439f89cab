import OpenFlow.Capture.Family

set_option autoImplicit false

/-! # Commands

A command line asks for one of two things: `inspect` tells how a capture, or each capture of a
directory, is made up, and `decode` tells what a capture holds. A command line is read from left to
right, argument by argument. An option may be given once, its value as the next argument or after an
equals sign; after `--`, all arguments are paths. After the word `help`, all arguments are the names
of commands, of which there may be one. -/

namespace OpenFlow

/-- How a decoding is written. -/
inductive DecodingFormat where
  | json | pretty
  deriving DecidableEq, Repr

/-- What a command line asks for. -/
inductive Command where
  /-- Tell how captures are made up. Of a directory, the captures are those whose names a pattern
      takes in; they may be put in the order of their sizes and cut off after some. -/
  | inspect (path : String) (family : CaptureFamily) (asHex : Bool) (pattern? : Option String)
      (bySize : Bool) (limit? : Option Nat)
  /-- Tell what a capture holds. -/
  | decode (path : String) (family : CaptureFamily) (asHex : Bool) (format : DecodingFormat)
  deriving DecidableEq, Repr

/-- The path that a command is about. -/
def Command.path : Command → String
  | inspect path .. | decode path .. => path

/-- Why a command line asks for no command. -/
inductive CommandLine.Stop where
  | misuse
  | help
  | version
  deriving DecidableEq, Repr

namespace CommandLine

/-- The name of a command; `help` asks how the program, or one of its commands, is used. -/
inductive Verb where
  | inspect | decode | help
  deriving DecidableEq, Repr

/-- The verb that a word is. -/
def Verb.ofWord? : String → Option Verb
  | "inspect" => some .inspect
  | "decode" => some .decode
  | "help" => some .help
  | _ => none

/-- What was read of a command line. -/
structure Reading where
  verb? : Option Verb
  /-- The command that help is asked for. -/
  topic? : Option Verb
  /-- The option whose value comes next. -/
  pending? : Option String
  /-- Only paths come from here on. -/
  pathsOnly : Bool
  path? : Option String
  /-- The options with values, and those values. -/
  values : List (String × String)
  /-- The options without values. -/
  switches : List String
  deriving DecidableEq, Repr

/-- Nothing was read. -/
def Reading.start : Reading := ⟨none, none, none, false, none, [], []⟩

/-- The options with values that a command takes. -/
def valuedOptions : Option Verb → List String
  | some .inspect => ["as", "glob", "sort", "limit"]
  | some .decode => ["as", "format"]
  | some .help | none => []

/-- The options without values that a command takes. -/
def switchOptions : Option Verb → List String
  | none => ["verbose"]
  | some _ => ["hex", "verbose"]

/-- The largest number that may be given. -/
def maxNumber : Nat := 0xffffffffffffffff

/-- A number: decimal digits, perhaps after a plus sign. -/
def number? (s : String) : Option Nat := do
  let digits := if s.startsWith "+" then (s.drop 1).toString else s
  guard (!digits.isEmpty && digits.all Char.isDigit)
  let n ← digits.toNat?
  guard (n ≤ maxNumber)
  return n

/-- Whether an option may have a value. -/
def admits : String → String → Bool
  | "as", value => (CaptureFamily.ofName? value).isSome
  | "sort", value => value == "size"
  | "limit", value => (number? value).isSome
  | "format", value => value == "json" || value == "pretty"
  | _, _ => true

/-- Reads the value of an option, which was not given before. -/
def Reading.takeValue (r : Reading) (option value : String) : Except Stop Reading :=
  if (r.values.lookup option).isSome || !admits option value then .error .misuse
  else .ok { r with pending? := none, values := (option, value) :: r.values }

/-- Reads an option without a value, which was not given before. -/
def Reading.takeSwitch (r : Reading) (option : String) : Except Stop Reading :=
  if r.switches.contains option then .error .misuse
  else .ok { r with switches := option :: r.switches }

/-- Reads an option by its name. -/
def Reading.takeOption (r : Reading) (option : String) (value? : Option String) :
    Except Stop Reading :=
  if (valuedOptions r.verb?).contains option then
    match value? with
    | some value => r.takeValue option value
    | none => .ok { r with pending? := some option }
  else if value?.isSome then .error .misuse
  else if (switchOptions r.verb?).contains option then r.takeSwitch option
  else if option = "help" then .error .help
  else if option = "version" && r.verb?.isNone then .error .version
  else .error .misuse

/-- Reads options of one letter each. -/
def Reading.takeLetters (r : Reading) : List Char → Except Stop Reading
  | [] => .ok r
  | 'v' :: letters => do (← r.takeSwitch "verbose").takeLetters letters
  | 'h' :: _ => .error .help
  | 'V' :: _ => if r.verb?.isNone then .error .version else .error .misuse
  | _ => .error .misuse

/-- Reads an argument that is no option: the name of the command, and then its path. -/
def Reading.takePlain (r : Reading) (argument : String) : Except Stop Reading :=
  match r.verb?, r.path? with
  | none, _ =>
    match Verb.ofWord? argument with
    | some verb =>
      if r.pathsOnly then .error .misuse else .ok { r with verb? := some verb, switches := [] }
    | none => .error .misuse
  | some _, none =>
    if argument.isEmpty then .error .misuse else .ok { r with path? := some argument }
  | some _, some _ => .error .misuse

/-- Reads an argument after the word `help`. -/
def Reading.takeTopic (r : Reading) (argument : String) : Except Stop Reading :=
  match r.topic?, Verb.ofWord? argument with
  | none, some topic => .ok { r with topic? := some topic }
  | _, _ => .error .misuse

/-- Whether an argument has the form of an option. -/
def isOption (argument : String) : Bool := argument.startsWith "-" && argument != "-"

/-- The name of a long option, and the value after the equals sign, if there is one. -/
def splitOption (argument : String) : String × Option String :=
  let cs := argument.toList.drop 2
  match cs.dropWhile (· != '=') with
  | [] => (String.ofList cs, none)
  | _ :: value => (String.ofList (cs.takeWhile (· != '=')), some (String.ofList value))

/-- Reads one argument. -/
def Reading.take (r : Reading) (argument : String) : Except Stop Reading :=
  match r.verb?, r.pending? with
  | some .help, _ => r.takeTopic argument
  | _, some option => if isOption argument then .error .misuse else r.takeValue option argument
  | _, none =>
    if r.pathsOnly || !isOption argument then r.takePlain argument
    else if argument = "--" then .ok { r with pathsOnly := true }
    else if argument.startsWith "--" then
      let (option, value?) := splitOption argument
      r.takeOption option value?
    else r.takeLetters (argument.toList.drop 1)

/-- The command that was read, which must be complete. -/
def Reading.finish (r : Reading) : Except Stop Command :=
  match r.verb?, r.pending?, r.path?, (r.values.lookup "as").bind CaptureFamily.ofName? with
  | some .inspect, none, some path, some family =>
    .ok (.inspect path family (r.switches.contains "hex") (r.values.lookup "glob")
      (r.values.lookup "sort").isSome ((r.values.lookup "limit").bind number?))
  | some .decode, none, some path, some family =>
    .ok (.decode path family (r.switches.contains "hex")
      (if r.values.lookup "format" = some "pretty" then .pretty else .json))
  | some .help, _, _, _ => .error .help
  | _, _, _, _ => .error .misuse

/-- The command that arguments ask for. -/
def parse (arguments : List String) : Except Stop Command :=
  (arguments.foldlM Reading.take Reading.start).bind Reading.finish

end CommandLine

end OpenFlow
