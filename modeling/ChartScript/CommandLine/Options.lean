import ChartScript.Text.Split

/-!
# Command line options

What the words of a command line say. Every option takes a value, which is the next word or stands in
the same word behind an equals sign; a long option can be abbreviated as long as no other one is
meant. Of two values of an option the later counts.

A word that starts with a dash is an option, unless it is just a dash, a negative number or a text
with blanks. Words that are neither options nor values are not accepted.
-/

namespace ChartScript.CommandLine

/-- An option: the ways to write it, and the name of its value. -/
structure OptionSpec where
  /-- The ways to write it. -/
  forms : List String
  /-- The name of its value. -/
  name : String
  /-- Whether it must be given. -/
  isRequired : Bool

/-- Why the words of a command line are not run. -/
inductive Refusal where
  /-- They ask for help. -/
  | help
  /-- They are not understood. -/
  | usage
deriving DecidableEq

/-- What a word is. -/
inductive Word where
  /-- An option, and its value if that stands in the same word. -/
  | option (name : String) (value : Option String)
  /-- The request for help. -/
  | help
  /-- An option that is not known. -/
  | unknown
  /-- Anything else. -/
  | plain (text : String)

/-- The name under which the request for help is filed. -/
def helpName : String := "help"

/-- All ways to write an option, with the names of the options. -/
def forms (specs : List OptionSpec) : List (String × String) :=
  [("-h", helpName), ("--help", helpName)]
    ++ specs.flatMap fun spec => spec.forms.map fun form => (form, spec.name)

/-- The word for an option. -/
def optionWord (name : String) (value : Option String) : Word :=
  if name = helpName then (if value.isSome then .unknown else .help) else .option name value

/-- The parts of a word before and behind its first equals sign. -/
def splitEquals? (word : String) : Option (String × String) :=
  match Text.split '=' word.toList with
  | first :: second :: rest =>
    some (String.ofList first, String.ofList (['='].intercalate (second :: rest)))
  | _ => none

/-- The options that a word can be short for, with the values that stand in it. -/
def abbreviated (specs : List OptionSpec) (word : String) : List (String × Option String) :=
  let starts := fun (text : String) (form : String) => text.toList.isPrefixOf form.toList
  if "--".toList.isPrefixOf word.toList then
    let (text, value) := match splitEquals? word with
      | some (text, value) => (text, some value)
      | none => (word, none)
    (forms specs).filterMap fun (form, name) =>
      if starts text form then some (name, value) else none
  else
    let short := String.ofList (word.toList.take 2)
    (forms specs).filterMap fun (form, name) =>
      if form = short then some (name, some (String.ofList (word.toList.drop 2)))
      else if starts word form then some (name, none)
      else none

/-- Whether a word is a negative number. -/
def isNegativeNumber (word : List Char) : Bool :=
  match word with
  | '-' :: rest =>
    let fraction := (rest.dropWhile Char.isDigit).drop 1
    let whole := rest.dropWhile Char.isDigit
    (!rest.isEmpty && whole.isEmpty)
      || (whole.head? == some '.' && !fraction.isEmpty && fraction.all Char.isDigit)
  | _ => false

/-- What a word is. An abbreviation of several options is not understood. -/
def classify (specs : List OptionSpec) (word : String) : Except Refusal Word :=
  let table := forms specs
  match word.toList with
  | [] | ['-'] => .ok (.plain word)
  | '-' :: _ =>
    match table.lookup word, (splitEquals? word).bind fun (form, value) =>
        (table.lookup form).map fun name => (name, value) with
    | some name, _ => .ok (optionWord name none)
    | none, some (name, value) => .ok (optionWord name (some value))
    | none, none =>
      match abbreviated specs word with
      | [(name, value)] => .ok (optionWord name value)
      | _ :: _ :: _ => .error .usage
      | [] =>
        if isNegativeNumber word.toList || word.toList.contains ' ' then .ok (.plain word)
        else .ok .unknown
  | _ => .ok (.plain word)

/-- What the words are; behind two dashes there are no options, and nothing is accepted. -/
def classifyAll (specs : List OptionSpec) (words : List String) : Except Refusal (List Word) := do
  let before := words.takeWhile (· != "--")
  let known ← before.mapM (classify specs)
  return if before.length = words.length then known else known ++ [.unknown]

/-- The values of the options that the words give. The flag tells whether all words are accepted. -/
def valuesOf : List Word → Except Refusal (Bool × List (String × String))
  | [] => .ok (true, [])
  | .help :: _ => .error .help
  | .option name (some value) :: rest => do
    let (ok, values) ← valuesOf rest
    return (ok, (name, value) :: values)
  | .option name none :: .plain value :: rest => do
    let (ok, values) ← valuesOf rest
    return (ok, (name, value) :: values)
  | .option _ none :: _ => .error .usage
  | .unknown :: rest | .plain _ :: rest => do
    let (_, values) ← valuesOf rest
    return (false, values)

/-- The values of options by name. -/
structure Values where
  /-- The names and values, in the order in which they are given. -/
  entries : List (String × String)

/-- The value of an option; an empty one counts as none. -/
def Values.get? (v : Values) (name : String) : Option String :=
  (v.entries.reverse.lookup name).filter (· != "")

/-- The value of an option, which may be empty. -/
def Values.getD (v : Values) (name : String) : String := (v.entries.reverse.lookup name).getD ""

/-- What the words of a command line say. -/
def read (specs : List OptionSpec) (words : List String) : Except Refusal Values := do
  let (ok, entries) ← valuesOf (← classifyAll specs words)
  let given := fun (spec : OptionSpec) => (entries.lookup spec.name).isSome
  if ok && specs.all fun spec => given spec || !spec.isRequired then return { entries }
  else throw .usage

end ChartScript.CommandLine
