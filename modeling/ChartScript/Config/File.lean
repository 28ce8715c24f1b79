import ChartScript.Config.Basic
import ChartScript.Config.Yaml.Reader
import ChartScript.Config.Yaml.Writer
import ChartScript.Storage.Basic

/-!
# Configuration files

A configuration file holds the settings that differ from the standard ones (`Config.load`). Saving
writes all of them (`Config.save`). A file that is not there holds none, but a configuration without
any file has nowhere to be saved to.
-/

namespace ChartScript

/-- Why a configuration cannot be loaded or saved. -/
inductive ConfigFileError where
  /-- The text, or the lack of a file. -/
  | config (e : ConfigError)
  /-- The file. -/
  | file (e : FileError)

namespace Config

/-- The configuration that a text describes. -/
def ofText (text : List Char) : Except ConfigError Config :=
  match Yaml.read? text with
  | some d => ofSetting d
  | none => .error .malformed

/-- The text that describes a configuration. -/
def text (c : Config) : List Char := Yaml.write c.entries

/-- A file name, unless it is empty. -/
def fileName? (path : Option String) : Option String := path.filter (· != "")

/-- Loads the configuration of a file, if there is one. -/
def load [Monad m] [Storage m] (path : Option String) : ExceptT ConfigFileError m Config := do
  match fileName? path with
  | none => return standard
  | some path => do
    if !(← (Storage.isThere path : m _)) then return standard
    match ← (Storage.readLines path : m _) with
    | .error e => throw (.file e)
    | .ok text =>
      match ofText text.toList with
      | .ok c => return c
      | .error e => throw (.config e)

/-- Saves a configuration to a file, and makes the directories that the file is in. -/
def save [Monad m] [Storage m] (path : Option String) (c : Config) :
    ExceptT ConfigFileError m Unit := do
  match fileName? path with
  | none => throw (.config .noFile)
  | some path => do
    let made ← (Storage.makeParents path : m _)
    let written ← match made with
      | .ok () => (Storage.writeText path (String.ofList c.text) : m _)
      | .error e => pure (.error e)
    match written with
    | .ok () => return
    | .error e => throw (.file e)

end Config

end ChartScript
