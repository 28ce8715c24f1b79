import ChartScript.Data.Datum

/-!
# JSON

Plain data as JSON text. Only characters of the basic Latin block are written as they are; any other
character becomes an escape of its UTF-16 units. Floats are written with the digits that read back,
and the values without digits as bare words.

* `Json.compact` writes on one line, `Json.indented` with two blanks a level.
* `Json.read?` reads; a dictionary that names a key twice keeps the later value.
-/

namespace ChartScript.Json

open Datum (joined)

/-! ### Writing -/

/-- One UTF-16 unit as an escape. -/
def unitEscape (unit : Nat) : List Char := '\\' :: 'u' :: Text.hexText 4 unit

/-- One character inside a JSON string. -/
def stringChar (c : Char) : List Char :=
  if c = '"' || c = '\\' then ['\\', c]
  else if c = '\n' then ['\\', 'n']
  else if c = '\r' then ['\\', 'r']
  else if c = '\t' then ['\\', 't']
  else if c.toNat = 8 then ['\\', 'b']
  else if c.toNat = 12 then ['\\', 'f']
  else if 32 ≤ c.toNat && c.toNat < 127 then [c]
  else if c.toNat < 0x10000 then unitEscape c.toNat
  else
    let offset := c.toNat - 0x10000
    unitEscape (0xD800 + offset / 0x400) ++ unitEscape (0xDC00 + offset % 0x400)

/-- A text as a JSON string. -/
def stringText (s : String) : List Char := '"' :: s.toList.flatMap stringChar ++ ['"']

/-- A datum without items, or without entries, as JSON. -/
def scalarText : Datum → List Char
  | .null => "null".toList
  | .bool b => if b then "true".toList else "false".toList
  | .int n => Number.intText n
  | .float x => Number.floatText .json x
  | .text s => stringText s
  | .list _ => ['[', ']']
  | .dict _ => ['\x7b', '\x7d']

mutual

/-- A datum as JSON on one line. -/
def compact : Datum → List Char
  | .list items => '[' :: joined [',', ' '] (compactItems items) ++ [']']
  | .dict entries => '\x7b' :: joined [',', ' '] (compactEntries entries) ++ ['\x7d']
  | d => scalarText d

/-- The items of a list on one line. -/
def compactItems : List Datum → List (List Char)
  | [] => []
  | item :: items => compact item :: compactItems items

/-- The entries of a dictionary on one line. -/
def compactEntries : List (String × Datum) → List (List Char)
  | [] => []
  | (key, value) :: entries =>
    (stringText key ++ ':' :: ' ' :: compact value) :: compactEntries entries

end

/-- A line break and the blanks of an indentation level. -/
def lineBreak (level : Nat) : List Char := '\n' :: List.replicate (2 * level) ' '

/-- Texts on lines of their own between two brackets; the brackets alone if there are none. -/
def block (level : Nat) (opening closing : Char) (texts : List (List Char)) : List Char :=
  if texts.isEmpty then [opening, closing]
  else
    opening :: lineBreak (level + 1) ++ joined (',' :: lineBreak (level + 1)) texts
      ++ lineBreak level ++ [closing]

mutual

/-- A datum as JSON over several lines, inside a given indentation level. -/
def indented (level : Nat) : Datum → List Char
  | .list items => block level '[' ']' (indentedItems (level + 1) items)
  | .dict entries => block level '\x7b' '\x7d' (indentedEntries (level + 1) entries)
  | d => scalarText d

/-- The items of a list over several lines. -/
def indentedItems (level : Nat) : List Datum → List (List Char)
  | [] => []
  | item :: items => indented level item :: indentedItems level items

/-- The entries of a dictionary over several lines. -/
def indentedEntries (level : Nat) : List (String × Datum) → List (List Char)
  | [] => []
  | (key, value) :: entries =>
    (stringText key ++ ':' :: ' ' :: indented level value) :: indentedEntries level entries

end

/-! ### Reading: lexemes -/

/-- A lexeme of JSON text. -/
inductive Lexeme where
  /-- A bracket, a brace, a comma or a colon. -/
  | mark (c : Char)
  /-- A string. -/
  | text (s : String)
  /-- A number or one of the bare words. -/
  | value (d : Datum)

/-- The bare words. -/
def words : List (List Char × Datum) :=
  [("null".toList, .null), ("true".toList, .bool true), ("false".toList, .bool false),
   ("NaN".toList, .float (0.0 / 0.0)), ("Infinity".toList, .float (1.0 / 0.0)),
   ("-Infinity".toList, .float (-1.0 / 0.0))]

/-- A number in JSON: an integer unless it has a point or an exponent. -/
def number? (text : List Char) : Option Datum :=
  let (negative, body) := match text with
    | '-' :: rest => (true, rest)
    | _ => (false, text)
  if body.all Char.isDigit then
    (Number.literalInt? body).map fun n => .int (if negative then -(n : Int) else n)
  else
    (Number.readDecimal? body).map fun d => .float (Number.ofDecimal negative d.digits d.exponent)

/-- A number or a bare word. -/
def bareValue? (text : List Char) : Option Datum :=
  match words.find? fun word => word.1 == text with
  | some word => some word.2
  | none => number? text

/-- Whether a character can stand in a number or a bare word. -/
def isBare (c : Char) : Bool := c.isAlphanum || c == '-' || c == '+' || c == '.'

/-- One character of a JSON string: the code point, or the UTF-16 unit of an escape. -/
def stringUnit? : List Char → Option (Nat × List Char)
  | '\\' :: 'u' :: rest => Text.readHex? 4 rest
  | '\\' :: 'n' :: rest => some (10, rest)
  | '\\' :: 'r' :: rest => some (13, rest)
  | '\\' :: 't' :: rest => some (9, rest)
  | '\\' :: 'b' :: rest => some (8, rest)
  | '\\' :: 'f' :: rest => some (12, rest)
  | '\\' :: c :: rest => if c = '"' || c = '\\' || c = '/' then some (c.toNat, rest) else none
  | c :: rest => if c.toNat < 32 || c = '\\' || c = '"' then none else some (c.toNat, rest)
  | [] => none

/-- Reading a character shortens the text. -/
theorem stringUnit?_length {text rest : List Char} {n : Nat}
    (h : stringUnit? text = some (n, rest)) : rest.length < text.length := by
  unfold stringUnit? at h
  split at h
  case h_1 => have := Text.readHex?_length h; simp only [List.length_cons]; omega
  all_goals grind

/-- Joins the two halves of a surrogate pair. -/
def joinPairs : List Nat → List Char
  | high :: low :: rest =>
    if 0xD800 ≤ high && high < 0xDC00 && 0xDC00 ≤ low && low < 0xE000 then
      Char.ofNat (0x10000 + (high - 0xD800) * 0x400 + (low - 0xDC00)) :: joinPairs rest
    else Char.ofNat high :: joinPairs (low :: rest)
  | [unit] => [Char.ofNat unit]
  | [] => []

/-- Reads the inside of a JSON string up to the closing quote. -/
def stringBody? (text : List Char) : Option (List Nat × List Char) :=
  match text with
  | [] => none
  | '"' :: rest => some ([], rest)
  | c :: rest =>
    match h : stringUnit? (c :: rest) with
    | none => none
    | some (unit, more) =>
      have := stringUnit?_length h
      (stringBody? more).map fun (units, rest) => (unit :: units, rest)
termination_by text.length
decreasing_by assumption

/-- The text behind a string is shorter than the string. -/
theorem stringBody?_length {text rest : List Char} {units : List Nat}
    (h : stringBody? text = some (units, rest)) : rest.length < text.length := by
  fun_induction stringBody? text generalizing units rest with
  | case1 => cases h
  | case2 rest => cases h; simp
  | case3 c rest _ hn => cases h
  | case4 c rest' _ unit more hu _ ih =>
    obtain ⟨⟨u, r⟩, hr, heq⟩ := Option.map_eq_some_iff.1 h
    obtain ⟨-, rfl⟩ := Prod.mk.inj heq
    have := ih hr
    have := stringUnit?_length hu
    omega

/-- Cuts JSON text into lexemes. -/
def lexemes? (text : List Char) : Option (List Lexeme) :=
  match text with
  | [] => some []
  | c :: rest =>
    if c = ' ' || c = '\t' || c = '\n' || c = '\r' then lexemes? rest
    else if c = '"' then
      match h : stringBody? rest with
      | none => none
      | some (units, more) =>
        have := stringBody?_length h
        (lexemes? more).map (.text (String.ofList (joinPairs units)) :: ·)
    else if isBare c then do
      let value ← bareValue? (c :: rest.takeWhile isBare)
      have : (rest.dropWhile isBare).length ≤ rest.length := (List.dropWhile_sublist isBare).length_le
      let more ← lexemes? (rest.dropWhile isBare)
      some (.value value :: more)
    else (lexemes? rest).map (.mark c :: ·)
termination_by text.length
decreasing_by all_goals (simp only [List.length_cons]; omega)

/-! ### Reading: data -/

/-- What is left of the lexemes after a step that used some of them. -/
abbrev Rest (lexemes : List Lexeme) := { rest : List Lexeme // rest.length < lexemes.length }

mutual

/-- Reads one datum. -/
def datum? (lexemes : List Lexeme) : Option (Datum × Rest lexemes) :=
  match lexemes with
  | .text s :: rest => some (.text s, ⟨rest, by simp⟩)
  | .value d :: rest => some (d, ⟨rest, by simp⟩)
  | .mark '[' :: .mark ']' :: rest => some (.list [], ⟨rest, by simp +arith⟩)
  | .mark '[' :: rest => do
    let (items, ⟨rest', h⟩) ← items? rest
    some (.list items, ⟨rest', by simp only [List.length_cons]; omega⟩)
  | .mark '\x7b' :: .mark '\x7d' :: rest => some (.dict [], ⟨rest, by simp +arith⟩)
  | .mark '\x7b' :: rest => do
    let (entries, ⟨rest', h⟩) ← entries? rest
    some (.dict entries, ⟨rest', by simp only [List.length_cons]; omega⟩)
  | _ => none
termination_by 2 * lexemes.length

/-- Reads the items of a list that has some, and its closing bracket. -/
def items? (lexemes : List Lexeme) : Option (List Datum × Rest lexemes) := do
  let (item, ⟨rest, h⟩) ← datum? lexemes
  match hr : rest with
  | .mark ']' :: more => some ([item], ⟨more, by simp only [hr, List.length_cons] at h; omega⟩)
  | .mark ',' :: more => do
    have : more.length < lexemes.length := by simp only [hr, List.length_cons] at h; omega
    let (items, ⟨rest', h'⟩) ← items? more
    some (item :: items, ⟨rest', by omega⟩)
  | _ => none
termination_by 2 * lexemes.length + 1

/-- Reads the entries of a dictionary that has some, and its closing brace. -/
def entries? (lexemes : List Lexeme) : Option (List (String × Datum) × Rest lexemes) :=
  match lexemes with
  | .text key :: .mark ':' :: rest => do
    let (value, ⟨rest', h⟩) ← datum? rest
    match hr : rest' with
    | .mark '\x7d' :: rest'' =>
      some ([(key, value)], ⟨rest'', by simp only [hr, List.length_cons] at h ⊢; omega⟩)
    | .mark ',' :: rest'' => do
      have : rest''.length < rest.length := by simp only [hr, List.length_cons] at h; omega
      let (entries, ⟨last, h'⟩) ← entries? rest''
      let entries := if (Datum.find? key entries).isSome then entries else (key, value) :: entries
      some (entries, ⟨last, by simp only [List.length_cons]; omega⟩)
    | _ => none
  | _ => none
termination_by 2 * lexemes.length + 1
decreasing_by all_goals (try simp only [List.length_cons]); omega

end

/-- Reads a JSON text that holds one datum. -/
def read? (text : List Char) : Option Datum := do
  let lexemes ← lexemes? text
  let (d, ⟨rest, _⟩) ← datum? lexemes
  if rest.isEmpty then some d else none

end ChartScript.Json
