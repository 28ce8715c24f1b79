import ChartScript.CommandLine.Options
import ChartScript.Config.File
import ChartScript.Conformance
import ChartScript.Syntax.Render
import ChartScript.Syntax.Star
import ChartScript.Syntax.Unit

/-!
# Commands

The two commands of the program. `transpile` writes a source in its portable form, as text or as a
runnable unit; `conformance` compares the two readers on a directory of sources and writes a report.

Both load a configuration first, and refuse one with a level of messages that there is none of. A
source that cannot be read is an ordinary outcome of the first command and has the status 1; so does
a disagreement of the second.
-/

namespace ChartScript.CommandLine

/-- What a command comes to. -/
structure Outcome where
  /-- The status, which is zero if all went well. -/
  status : Nat
  /-- What is printed. -/
  output : List Char

/-- Why a command comes to nothing. -/
inductive CommandError where
  /-- The words of the command line are not run. -/
  | refused (r : Refusal)
  /-- The configuration or its file. -/
  | config (e : ConfigFileError)
  /-- A file. -/
  | file (e : FileError)
  /-- There is no such level of messages. -/
  | unknownLevel
  /-- A level of messages is no text. -/
  | levelNotText
  /-- A path is no text. -/
  | pathNotText
  /-- A source has a number literal without value. -/
  | unreadable
  /-- A source has an expression that cannot be compared. -/
  | incomparable
  /-- A source has an expression that cannot be rewritten. -/
  | tooDeep (e : Syntax.TooDeep)
  /-- A source has an expression that cannot be written. -/
  | unwritable (e : RenderError)

/-- The status of a refusal. -/
def Refusal.status : Refusal → Nat
  | .help => 0
  | .usage => 2

/-! ### Configuration and messages -/

/-- The levels of messages. -/
def levels : List String :=
  ["TRACE", "DEBUG", "INFO", "SUCCESS", "WARNING", "ERROR", "CRITICAL"]

/-- Checks a level of messages, in any letter case, and a file for them. -/
def checkLevel (level file : Setting) : Except CommandError Unit :=
  match level with
  | .text s =>
    if levels.contains (String.ofList (s.toList.map Char.toUpper)) then
      match file with
      | .text _ => .ok ()
      | file => if file.isTrue then .error .pathNotText else .ok ()
    else .error .unknownLevel
  | _ => .error .levelNotText

/-- Loads a configuration and checks its level of messages. -/
def loadConfig [Monad m] [Storage m] (path : Option String) : ExceptT CommandError m Config := do
  let c ← (Config.load path).adapt CommandError.config
  ofResult (checkLevel (c.get "app.log_level" (.text "INFO")) (c.get "app.log_file" .null))
  return c
where
  /-- Lets a plain computation fail. -/
  ofResult (result : Except CommandError Unit) : ExceptT CommandError m Unit :=
    match result with
    | .ok () => return
    | .error e => throw e

/-- Lets a computation with an error of its own fail. -/
def orFail [Monad m] (error : ε → CommandError) (result : Except ε α) : ExceptT CommandError m α :=
  match result with
  | .ok a => return a
  | .error e => throw (error e)

/-- Stores a text. -/
def store [Monad m] [Storage m] (path : String) (text : List Char) :
    ExceptT CommandError m Unit := do
  orFail .file (← (Storage.writeText path (String.ofList text) : m _))

/-! ### Transpiling -/

/-- The options of `transpile`. -/
def transpileOptions : List OptionSpec :=
  [{ forms := ["--in", "-i"], name := "in", isRequired := true },
   { forms := ["--out-star"], name := "out-star", isRequired := false },
   { forms := ["--out-module"], name := "out-module", isRequired := false },
   { forms := ["--config"], name := "config", isRequired := false },
   { forms := ["--log-level"], name := "log-level", isRequired := false }]

/-- The portable form of a source. -/
def portable (source : String) : Except CommandError Program := do
  match Program.read source with
  | .error _ => throw .unreadable
  | .ok p =>
    match p.toStar with
    | .error e => throw (.tooDeep e)
    | .ok p => return p

/-- Writes the portable form of a source to the files that are asked for, or prints it. -/
def transpileSource [Monad m] [Storage m] (values : Values) (source : String) :
    ExceptT CommandError m Outcome := do
  let p ← orFail id (portable source)
  let star ← orFail .unwritable p.render
  if let some path := values.get? "out-star" then store path (star ++ ['\n'])
  if let some path := values.get? "out-module" then store path p.toUnit
  let isStored := (values.get? "out-star").isSome || (values.get? "out-module").isSome
  return { status := 0, output := if isStored then [] else star ++ ['\n'] }

/-- Writes a source in its portable form. -/
def transpile [Monad m] [Storage m] (words : List String) : ExceptT CommandError m Outcome := do
  let values ← orFail .refused (read transpileOptions words)
  let c ← loadConfig (values.get? "config")
  if let some level := values.get? "log-level" then
    orFail id (checkLevel (.text level) (c.get "app.log_file" .null))
  match ← (Storage.readLines (values.getD "in") : m _) with
  | .error _ => return { status := 1, output := [] }
  | .ok source => transpileSource values source

/-! ### Conformance -/

/-- The options of `conformance`. -/
def conformanceOptions : List OptionSpec :=
  [{ forms := ["--fixtures"], name := "fixtures", isRequired := false },
   { forms := ["--out"], name := "out", isRequired := false },
   { forms := ["--markdown"], name := "markdown", isRequired := false },
   { forms := ["--config"], name := "config", isRequired := false }]

/-- The endings of the names of sources. -/
def sourceEndings : List String := [".pine", ".txt"]

/-- Whether a file name is that of a source: something, and one of the endings. -/
def isSourceName (name : String) : Bool :=
  sourceEndings.any fun ending =>
    ending.toList.isSuffixOf name.toList && ending.length < name.length

/-- The samples that are used where no others are found. -/
def standardSamples : List Sample := [{ name := "sample1", source := "a = 1\nplot(a)\n" }]

/-- A path that a setting gives; none is given by what counts as false. -/
def pathOf? : Setting → Except CommandError (Option String)
  | .text s => .ok (if s = "" then none else some s)
  | d => if d.isTrue then .error .pathNotText else .ok none

/-- Reads a sample of a directory. -/
def readSample [Monad m] [Storage m] (directory name : String) :
    ExceptT CommandError m Sample := do
  let source ← orFail .file (← (Storage.readLines (directory ++ "/" ++ name) : m _))
  return { name, source }

/-- The samples of a directory, sorted by their names; the standard ones where there are none. -/
def loadSamples [Monad m] [Storage m] (directory : Option String) :
    ExceptT CommandError m (List Sample) := do
  match directory with
  | none => return standardSamples
  | some directory => do
    match ← (Storage.fileNames? directory : m _) with
    | none => return standardSamples
    | some names => do
      let names := (names.filter isSourceName).mergeSort fun a b => decide (a ≤ b)
      let samples ← names.mapM (readSample directory)
      return if samples.isEmpty then standardSamples else samples

/-- The path of the report: the one asked for, or that of the configuration. -/
def reportPath (values : Values) (c : Config) : Except CommandError String :=
  match values.get? "out", c.get "conformance.report_path" (.text "parser-diff.json") with
  | some path, _ => .ok path
  | none, .text s => .ok s
  | none, _ => .error .pathNotText

/-- Why a run that comes to nothing ends the command. -/
def ofCompareError : CompareError → CommandError
  | .unreadable _ => .unreadable
  | .tooDeep => .incomparable

/-- Compares the two readers on the samples of a directory and writes a report, which bears the given
time. -/
def conformance [Monad m] [Storage m] (time : String) (words : List String) :
    ExceptT CommandError m Outcome := do
  let values ← orFail .refused (read conformanceOptions words)
  let c ← loadConfig (values.get? "config")
  let directory ← match values.get? "fixtures" with
    | some directory => pure (some directory)
    | none => orFail id (pathOf? (c.get "conformance.fixtures_dir" .null))
  let samples ← loadSamples directory
  let report ← orFail ofCompareError (Report.compare grammarReference samples)
  let path ← orFail id (reportPath values c)
  orFail .file (← (Storage.makeParents path : m _))
  store path (Json.indented 0 (report.toDatum time))
  if let some path := values.get? "markdown" then store path (report.markdown time).toList
  return { status := if report.ok then 0 else 1, output := [] }

end ChartScript.CommandLine
