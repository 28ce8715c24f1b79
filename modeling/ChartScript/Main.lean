import ChartScript.CommandLine.Commands
import Std.Time.Format

/-!
# The program

The command line, run on the files of the machine. The first word says which of the two commands is
meant, and the others are its options.
-/

namespace ChartScript.CommandLine

/-- Why the machine does not give a file, as far as it tells. -/
def fileError : IO.Error → FileError
  | .noFileOrDirectory .. => .missing
  | .alreadyExists .. => .isThere
  | .inappropriateType .. => .isDirectory
  | _ => .notDirectory

/-- Does something with files. -/
def attempted (action : IO α) : IO (Except FileError α) := do
  try return .ok (← action)
  catch e => return .error (fileError e)

instance : Storage IO where
  readText path := attempted (IO.FS.readFile path)
  writeText path text := attempted (IO.FS.writeFile path text)
  makeParents path := attempted do
    match ((← IO.currentDir) / path).parent with
    | some parent => IO.FS.createDirAll parent
    | none => return
  isThere path := do ((← IO.currentDir) / path).pathExists
  fileNames? path := do
    let place := (← IO.currentDir) / path
    if !(← place.isDir) then return none
    let entries ← place.readDir
    let files ← entries.filterM fun entry => return !(← entry.path.isDir)
    return some (files.toList.map fun entry => entry.fileName)

/-- What is said about a command that comes to nothing. -/
def CommandError.message : CommandError → String
  | .refused _ => "usage: transpile --in FILE [--out-star FILE] [--out-module FILE] [--config FILE]"
    ++ " [--log-level LEVEL] | conformance [--fixtures DIRECTORY] [--out FILE] [--markdown FILE]"
    ++ " [--config FILE]"
  | .config (.config e) => e.message?.getD "The configuration cannot be used"
  | .config (.file _) => "The configuration file cannot be used"
  | .file _ => "A file cannot be read or written"
  | .unknownLevel => "There is no such level of messages"
  | .levelNotText => "A level of messages must be a text"
  | .pathNotText => "A path must be a text"
  | .unreadable => "A number literal has no value"
  | .incomparable => "An expression is nested too deeply to be compared"
  | .tooDeep e => e.message
  | .unwritable e => e.message?.getD "A literal cannot be written"

/-- The status of a command that comes to nothing. -/
def CommandError.status : CommandError → Nat
  | .refused r => r.status
  | _ => 1

/-- The time in the form of a report. -/
def currentTime : IO String := do
  let now := Std.Time.DateTime.ofTimestamp (← Std.Time.Timestamp.now) .UTC
  return now.format "uuuu-MM-dd'T'HH:mm:ssxxx"

/-- Runs a command on the files of the machine. -/
def run (words : List String) : ExceptT CommandError IO Outcome := do
  match words with
  | "transpile" :: options => transpile options
  | "conformance" :: options => conformance (← currentTime) options
  | _ => throw (.refused .usage)

end ChartScript.CommandLine

/-- Runs a command and reports its status. -/
def main (words : List String) : IO UInt32 := do
  match ← (ChartScript.CommandLine.run words).run with
  | .ok outcome => do
    IO.print (String.ofList outcome.output)
    return UInt32.ofNat outcome.status
  | .error e => do
    IO.eprintln e.message
    return UInt32.ofNat e.status
