/-!
# Storage

What the library asks of a place that holds files: to read and to write a text, to make directories,
and to list what is in one. A path has slashes between its parts. Whatever offers this can stand
behind a configuration and behind the command line.

Texts are read with one kind of line end (`unifiedLineEnds`).
-/

namespace ChartScript

/-- Why a file cannot be used. -/
inductive FileError where
  /-- There is no such file, or no directory to put it in. -/
  | missing
  /-- It is a directory. -/
  | isDirectory
  /-- A part of its path is no directory. -/
  | notDirectory
  /-- It is there already, and no directory. -/
  | isThere
deriving DecidableEq

/-- A place that holds files. -/
class Storage (m : Type → Type) where
  /-- The text of a file, as it is stored. -/
  readText : String → m (Except FileError String)
  /-- Stores the text of a file in a directory that is there. -/
  writeText : String → String → m (Except FileError Unit)
  /-- Makes the directories that a path is in, as far as they are not there. -/
  makeParents : String → m (Except FileError Unit)
  /-- Whether there is a file or a directory. -/
  isThere : String → m Bool
  /-- The names of the files that are directly in a directory, if it is one. -/
  fileNames? : String → m (Option (List String))

namespace Storage

/-- A text in which every line ends in a line feed. -/
def unifiedLineEnds : List Char → List Char
  | [] => []
  | '\r' :: '\n' :: rest => '\n' :: unifiedLineEnds rest
  | '\r' :: rest => '\n' :: unifiedLineEnds rest
  | c :: rest => c :: unifiedLineEnds rest

/-- The text of a file, with one kind of line end. -/
def readLines [Monad m] [Storage m] (path : String) : m (Except FileError String) := do
  let text ← readText path
  return text.map fun s => String.ofList (unifiedLineEnds s.toList)

end Storage

end ChartScript
