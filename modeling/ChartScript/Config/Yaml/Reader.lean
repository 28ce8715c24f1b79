import ChartScript.Config.Yaml.Scalar
import ChartScript.Config.Yaml.Token

/-!
# Reading configuration files

Settings from the tokens of a configuration file (`Yaml.read?`). A file holds one document: a word, a
list or a section, the latter two as blocks or in brackets, to any depth. What is left out counts as
no value.

A key is a single word. One that is a list or a section is an error, and of two entries with the same
key the later one counts.
-/

namespace ChartScript.Yaml

/-- Whether a row of tokens starts with one of the tokens that end a part of a block. -/
def endsPart : List Token → Bool
  | .key :: _ | .value :: _ | .closeBlock :: _ => true
  | _ => false

/-- A section with one more entry, if its key can be one. -/
def addEntry (key d : Setting) (entries : Section) : Option Section :=
  key.key?.map fun key => Section.bind key d entries

mutual

/-- Reads a setting. Blocks are allowed on demand, and so is a block of items without a start of its
own. -/
def readNode (fuel : Nat) (blocks bareItems : Bool) (tokens : List Token) :
    Option (Setting × List Token) :=
  match fuel with
  | 0 => none
  | fuel + 1 =>
    match tokens with
    | .scalar isPlain text :: rest =>
      some (if isPlain then ofPlain text else .text (String.ofList text), rest)
    | .openList :: rest => do
      let (items, rest) ← readList fuel true rest
      return (.list items, rest)
    | .openDict :: rest => do
      let (entries, rest) ← readDict fuel true [] rest
      return (.dict entries, rest)
    | .openItems :: rest =>
      if blocks then do
        let (items, rest) ← readItems fuel rest
        match rest with
        | .closeBlock :: rest => return (.list items, rest)
        | _ => none
      else none
    | .item :: _ =>
      if bareItems then do
        let (items, rest) ← readItems fuel tokens
        return (.list items, rest)
      else none
    | .openEntries :: rest =>
      if blocks then do
        let (entries, rest) ← readEntries fuel [] rest
        return (.dict entries, rest)
      else none
    | _ => none

/-- Reads a part of a block, which may be left out. -/
def readPart (fuel : Nat) (bareItems : Bool) (tokens : List Token) : Option (Setting × List Token) :=
  match fuel with
  | 0 => none
  | fuel + 1 =>
    if endsPart tokens then some (.null, tokens) else readNode fuel true bareItems tokens

/-- Reads the items of a block. -/
def readItems (fuel : Nat) (tokens : List Token) : Option (List Setting × List Token) :=
  match fuel with
  | 0 => none
  | fuel + 1 =>
    match tokens with
    | .item :: rest => do
      let (d, rest) ← match rest with
        | .item :: _ => some (Setting.null, rest)
        | rest => readPart fuel false rest
      let (items, rest) ← readItems fuel rest
      return (d :: items, rest)
    | tokens => some ([], tokens)

/-- Reads the entries of a block and its end. -/
def readEntries (fuel : Nat) (entries : Section) (tokens : List Token) :
    Option (Section × List Token) :=
  match fuel with
  | 0 => none
  | fuel + 1 =>
    match tokens with
    | .key :: rest => do
      let (key, rest) ← readPart fuel true rest
      let (value, rest) ← match rest with
        | .value :: rest => readPart fuel true rest
        | rest => some (Setting.null, rest)
      readEntries fuel (← addEntry key value entries) rest
    | .closeBlock :: rest => some (entries, rest)
    | _ => none

/-- Reads the items of a list in brackets and its end; every item but the first follows a comma. -/
def readList (fuel : Nat) (first : Bool) (tokens : List Token) :
    Option (List Setting × List Token) :=
  match fuel with
  | 0 => none
  | fuel + 1 => do
    if let .closeList :: rest := tokens then return ([], rest)
    let tokens ← match first, tokens with
      | true, tokens => some tokens
      | false, .comma :: rest => some rest
      | false, _ => none
    match tokens with
    | .closeList :: rest => return ([], rest)
    | .key :: rest => do
      let (entry, rest) ← readPair fuel rest
      let (items, rest) ← readList fuel false rest
      return (.dict entry :: items, rest)
    | tokens => do
      let (d, rest) ← readNode fuel false false tokens
      let (items, rest) ← readList fuel false rest
      return (d :: items, rest)

/-- Reads a part of a section in brackets, which may be left out. -/
def readShort (fuel : Nat) (tokens : List Token) : Option (Setting × List Token) :=
  match fuel with
  | 0 => none
  | fuel + 1 =>
    match tokens with
    | .value :: _ | .comma :: _ | .closeList :: _ | .closeDict :: _ => some (.null, tokens)
    | tokens => readNode fuel false false tokens

/-- Reads a key, and its value if there is one, as a section of one entry. -/
def readPair (fuel : Nat) (tokens : List Token) :
    Option (Section × List Token) :=
  match fuel with
  | 0 => none
  | fuel + 1 => do
    let (key, rest) ← readShort fuel tokens
    let (value, rest) ← match rest with
      | .value :: rest => readShort fuel rest
      | rest => some (Setting.null, rest)
    return (← addEntry key value [], rest)

/-- Reads the entries of a section in brackets and its end; every entry but the first follows a
comma, and a key can stand alone. -/
def readDict (fuel : Nat) (first : Bool) (entries : Section) (tokens : List Token) :
    Option (Section × List Token) :=
  match fuel with
  | 0 => none
  | fuel + 1 => do
    if let .closeDict :: rest := tokens then return (entries, rest)
    let tokens ← match first, tokens with
      | true, tokens => some tokens
      | false, .comma :: rest => some rest
      | false, _ => none
    match tokens with
    | .closeDict :: rest => return (entries, rest)
    | .key :: rest => do
      let (key, rest) ← readShort fuel rest
      let (value, rest) ← match rest with
        | .value :: rest => readShort fuel rest
        | rest => some (Setting.null, rest)
      readDict fuel false (← addEntry key value entries) rest
    | tokens => do
      let (key, rest) ← readNode fuel false false tokens
      readDict fuel false (← addEntry key .null entries) rest

end

/-- Reads a document, which may be left out if its start is marked. -/
def readDocument (marked : Bool) (tokens : List Token) : Option (Setting × List Token) :=
  match marked, tokens with
  | true, [] => some (.null, [])
  | true, .documentEnd :: _ => some (.null, tokens)
  | _, tokens => readNode (4 * tokens.length + 4) true false tokens

/-- Whether a token is the mark of the end of a document. -/
def Token.isDocumentEnd : Token → Bool
  | .documentEnd => true
  | _ => false

/-- Reads a configuration file. An empty one holds no value. -/
def read? (text : List Char) : Option Setting := do
  let tokens ← tokens? text
  if tokens.isEmpty then return .null
  let (d, rest) ← match tokens with
    | .documentStart :: rest => readDocument true rest
    | tokens => readDocument false tokens
  if (rest.dropWhile Token.isDocumentEnd).isEmpty then some d else none

end ChartScript.Yaml
