import OpenFlow.Capture.Run

set_option autoImplicit false

/-! # The program

Reads what the path of a command leads to, runs the command, and writes what it comes to. -/

namespace OpenFlow

/-- Why a file or a directory could not be read. -/
def failureReason : IO.Error → String
  | .permissionDenied .. => "Permission denied (os error 13)"
  | e => toString e

/-- The entries of a directory that are no directories themselves. -/
def listFiles (path : String) : IO (Array IO.FS.DirEntry) := do
  (← (← IO.FS.realPath path).readDir).filterM fun entry => return !(← entry.path.isDir)

/-- The names of files with what the files hold. -/
def readFiles (entries : Array IO.FS.DirEntry) : IO (List (String × Octets)) :=
  entries.toList.mapM fun entry => do
    return (entry.fileName, (← IO.FS.readBinFile entry.path).toList)

/-- What a path to a directory leads to. -/
def readDirectory (path : String) : IO Source := do
  let entries ← try listFiles path catch e => return .unlisted (failureReason e)
  try
    return .directory (← readFiles entries)
  catch e => return .unreadable (failureReason e)

/-- Whether a path leads to a directory. -/
def leadsToDirectory (path : String) : IO Bool := do
  try
    (← IO.FS.realPath path).isDir
  catch _ => return false

/-- What a path leads to. -/
def readSource (path : String) : IO Source := do
  if ← leadsToDirectory path then
    return ← readDirectory path
  try
    return .file (← IO.FS.readBinFile path).toList
  catch
    | .noFileOrDirectory .. => return .missing
    | .inappropriateType .. => return .belowFile
    | e => return .unreadable (failureReason e)

/-- Runs the command that arguments ask for. -/
def runArguments (arguments : List String) : IO Outcome := do
  match CommandLine.parse arguments with
  | .ok command => return command.run (← readSource command.path)
  | .error stop => return stop.outcome

end OpenFlow

/-- The program: runs a command line, and answers the code that it ends with. -/
def main (arguments : List String) : IO UInt32 := do
  let outcome ← OpenFlow.runArguments arguments
  (← IO.getStdout).putStr outcome.output
  (← IO.getStderr).putStr outcome.errors
  return outcome.code.toUInt32
