import ChartScript.Config.Yaml.Scalar

/-!
# Writing configuration files

Settings as the text of a configuration file (`Yaml.write`): blocks with two columns a level, entries
sorted by their keys, and the items of a list at the column of the entry that holds it. Empty lists
and sections are written as brackets.

A text is written plain if it reads back that way, between single quotes if it has only printable
characters of the basic Latin block, and between double quotes otherwise. A long text goes on in the
next line, where it has a single blank.
-/

namespace ChartScript.Yaml

/-! ### Forms of a text -/

/-- The forms in which a text can be written. -/
inductive Style where
  /-- Without quotes. -/
  | plain
  /-- Between single quotes. -/
  | single
  /-- Between double quotes. -/
  | double
deriving DecidableEq

/-- Whether a character is a blank or a line break, or there is none. -/
def isBlankOrNone (c? : Option Char) : Bool := c?.all fun c => c == ' ' || c == '\n'

/-- The marks that a plain text cannot start with. -/
def leadingMarks : List Char := "#,[]\x7b\x7d&*!|>'\"%@`".toList

/-- Whether a text starts in a way that a plain text cannot. -/
def startsWithMark : List Char → Bool
  | [] => true
  | c :: rest =>
    leadingMarks.contains c || c == ' '
      || ((c == '?' || c == ':' || c == '-') && isBlankOrNone rest.head?)
      || (c :: rest).take 3 == ['-', '-', '-'] || (c :: rest).take 3 == ['.', '.', '.']

/-- Whether a text has a colon in front of a blank, or a number sign behind one. -/
def hasInnerMark : List Char → Bool
  | [] => false
  | [c] => c == ':'
  | c :: d :: rest =>
    (c == ':' && isBlankOrNone (some d)) || (isBlankOrNone (some c) && d == '#')
      || hasInnerMark (d :: rest)

/-- Whether a text has a blank beside a line break. -/
def hasBlankAtBreak : List Char → Bool
  | c :: d :: rest => (c == ' ' && d == '\n') || (c == '\n' && d == ' ') || hasBlankAtBreak (d :: rest)
  | _ => false

/-- Whether a character is a line break or a printable one of the basic Latin block. -/
def isBasic (c : Char) : Bool := c == '\n' || (32 ≤ c.toNat && c.toNat ≤ 126)

/-- The form of a text; one that is a key in front of its colon must not have several lines. -/
def styleOf (isKey : Bool) (text : List Char) : Style :=
  let hasBreak := text.contains '\n'
  let quotable := text.all isBasic && !hasBlankAtBreak text && !(isKey && hasBreak)
  if isPlainText text && text.all isBasic && !hasBreak && !startsWithMark text
    && text.getLast? != some ' ' && !hasInnerMark text then .plain
  else if quotable then .single
  else .double

/-! ### Long texts -/

/-- The column behind which a text goes on in the next line. -/
def widthLimit : Nat := 80

/-- The start of a new line at a column. -/
def newLine (indent : Nat) : List Char := '\n' :: List.replicate indent ' '

/-- The first characters of a text that have a property or have it not, and the rest. -/
def spanWhile (p : Char → Bool) (text : List Char) : List Char × List Char :=
  (text.takeWhile p, text.dropWhile p)

/-- A plain text from a column on. -/
def plainText (folds : Bool) (indent : Nat) : Nat → Nat → List Char → List Char
  | 0, _, _ => []
  | _, _, [] => []
  | fuel + 1, column, c :: text =>
    if c == ' ' then
      let (blanks, rest) := spanWhile (· == ' ') (c :: text)
      if blanks.length = 1 && widthLimit < column && folds then
        newLine indent ++ plainText folds indent fuel indent rest
      else blanks ++ plainText folds indent fuel (column + blanks.length) rest
    else
      let (word, rest) := spanWhile (· != ' ') (c :: text)
      word ++ plainText folds indent fuel (column + word.length) rest

/-- A text between single quotes, from a column behind the first quote on. -/
def singleText (folds : Bool) (indent : Nat) : Nat → Bool → Nat → List Char → List Char
  | 0, _, _, _ => []
  | _, _, _, [] => []
  | fuel + 1, atStart, column, c :: text =>
    if c == ' ' then
      let (blanks, rest) := spanWhile (· == ' ') (c :: text)
      if blanks.length = 1 && widthLimit < column && folds && !atStart && !rest.isEmpty then
        newLine indent ++ singleText folds indent fuel false indent rest
      else blanks ++ singleText folds indent fuel false (column + blanks.length) rest
    else if c == '\n' then
      let (breaks, rest) := spanWhile (· == '\n') (c :: text)
      breaks ++ newLine indent ++ singleText folds indent fuel false indent rest
    else
      let (word, rest) := spanWhile (fun c => c != ' ' && c != '\n') (c :: text)
      let written := word.flatMap fun c => if c == '\'' then ['\'', '\''] else [c]
      written ++ singleText folds indent fuel false (column + written.length) rest

/-- The letters behind a backslash that stand for a character. -/
def escapeLetters : List (Char × Char) :=
  [('\x00', '0'), ('\x07', 'a'), ('\x08', 'b'), ('\t', 't'), ('\n', 'n'), ('\x0b', 'v'),
   ('\x0c', 'f'), ('\r', 'r'), ('\x1b', 'e'), ('"', '"'), ('\\', '\\'), ('\x85', 'N'),
   ('\xa0', '_'), ('\u2028', 'L'), ('\u2029', 'P')]

/-- The escape of a character, if it has to be escaped between double quotes. -/
def escapeOf? (c : Char) : Option (List Char) :=
  let upper := fun width => (Text.hexText width c.toNat).map Char.toUpper
  match escapeLetters.lookup c with
  | some letter => some ['\\', letter]
  | none =>
    if 32 ≤ c.toNat && c.toNat ≤ 126 then none
    else if c.toNat ≤ 0xFF then some ('\\' :: 'x' :: upper 2)
    else if c.toNat ≤ 0xFFFF then some ('\\' :: 'u' :: upper 4)
    else some ('\\' :: 'U' :: upper 8)

/-- A text between double quotes, from a column behind the first quote on. The flags say that the
first character has been passed, and that an escape or a new line has just been written. -/
def doubleText (folds : Bool) (indent : Nat) (passed fresh : Bool) (column : Nat) :
    List Char → List Char
  | [] => []
  | c :: rest =>
    let mayFold := folds && passed && !rest.isEmpty
    let lead := fun next? => newLine indent ++ if next? == some ' ' then ['\\'] else []
    let start := fun next? => if next? == some ' ' then indent + 1 else indent
    match escapeOf? c with
    | some e =>
      let column := column + e.length
      if mayFold && widthLimit + 1 < column then
        e ++ '\\' :: lead rest.head?
          ++ doubleText folds indent true true (start rest.head?) rest
      else e ++ doubleText folds indent true true column rest
    | none =>
      if mayFold && (c == ' ' || fresh) && widthLimit < column then
        '\\' :: lead (some c)
          ++ c :: doubleText folds indent true false (start (some c) + 1) rest
      else c :: doubleText folds indent true false (column + 1) rest

/-- A text from a column on; the form depends on whether it is a key in front of its colon, and only
one that is not can have several lines. -/
def textAt (isKey : Bool) (indent column : Nat) (text : List Char) : List Char :=
  let fuel := 2 * text.length + 1
  match styleOf isKey text with
  | .plain => plainText (!isKey) indent fuel column text
  | .single => '\'' :: singleText (!isKey) indent fuel true (column + 1) text ++ ['\'']
  | .double => '"' :: doubleText (!isKey) indent false true (column + 1) text ++ ['"']

/-! ### Settings -/

/-- How floats are written. -/
def floatLayout : Number.Layout :=
  { Number.Layout.plain with
    pointBeforeExponent := true, notANumber := ".nan", infinity := ".inf" }

/-- The number of columns of a level. -/
def levelWidth : Nat := 2

/-- A setting that needs no block, from a column on. -/
def scalarAt (indent column : Nat) : Setting → List Char
  | .null => "null".toList
  | .bool b => if b then "true".toList else "false".toList
  | .int n => Number.intText n
  | .float x => Number.floatText floatLayout x
  | .text s => textAt false (indent + levelWidth) column s.toList
  | .list _ => ['[', ']']
  | .dict _ => ['\x7b', '\x7d']

/-- A key, which stands at a column, and in front of its colon or not. -/
def keyAt (isShort : Bool) (indent column : Nat) : Key → List Char
  | .name s => textAt isShort (indent + levelWidth) column s.toList
  | .null => scalarAt indent column .null
  | .bool b => scalarAt indent column (.bool b)
  | .int n => scalarAt indent column (.int n)
  | .float x => scalarAt indent column (.float x)

/-- Whether a text can stand in front of a colon; another key needs a line of its own. -/
def isShortKey (key : List Char) : Bool :=
  !key.isEmpty && !key.any isBreak && key.length < 123
where
  /-- Whether a character ends a line. -/
  isBreak (c : Char) : Bool := c == '\n' || c == '\x85' || c == '\u2028' || c == '\u2029'

/-- The entries of a section sorted by their keys, if these are all names or all numbers; other ones
stay in their order. -/
def inKeyOrder (entries : Section) : Section :=
  if entries.all (·.1.isName) || entries.all (·.1.num?.isSome) then
    entries.mergeSort fun a b => !b.1.lt a.1
  else entries

mutual

/-- A setting with its entries sorted by their keys, at every level. -/
def sorted : Setting → Setting
  | .list items => .list (sortedItems items)
  | .dict entries => .dict (inKeyOrder (sortedEntries entries))
  | d => d

/-- The items of a list with their entries sorted. -/
def sortedItems : List Setting → List Setting
  | [] => []
  | d :: rest => sorted d :: sortedItems rest

/-- The entries of a section with the entries below them sorted. -/
def sortedEntries : List (Key × Setting) → Section
  | [] => []
  | (key, d) :: rest => (key, sorted d) :: sortedEntries rest

end

mutual

/-- What stands behind a mark that ends at a column. A block starts on a new line, or in the same
line where that is compact; the items of a list in an entry are not indented. -/
def behindMark (indent column : Nat) (compact inEntry : Bool) : Setting → List Char
  | .dict (entry :: entries) =>
    let inner := indent + levelWidth
    let lead := if compact then List.replicate (inner - column) ' ' else newLine inner
    lead ++ entriesText inner true (entry :: entries)
  | .list (d :: items) =>
    let inner := if inEntry && !compact then indent else indent + levelWidth
    let lead := if compact then List.replicate (inner - column) ' ' else newLine inner
    lead ++ itemsText inner true (d :: items)
  | d => ' ' :: scalarAt indent (column + 1) d

/-- The items of a list, each on its line; the first one is where the line stands. -/
def itemsText (indent : Nat) (first : Bool) : List Setting → List Char
  | [] => []
  | d :: rest =>
    (if first then [] else newLine indent) ++ '-' :: behindMark indent (indent + 1) true false d
      ++ itemsText indent false rest

/-- The entries of a section, each on its line; the first one is where the line stands. -/
def entriesText (indent : Nat) (first : Bool) : List (Key × Setting) → List Char
  | [] => []
  | (key, d) :: rest =>
    let lead := if first then [] else newLine indent
    let entry :=
      if isShortKey key.label.toList then
        let written := keyAt true indent indent key
        written ++ ':' :: behindMark indent (indent + written.length + 1) false true d
      else
        '?' :: ' ' :: keyAt false indent (indent + 2) key ++ newLine indent
          ++ ':' :: behindMark indent (indent + 1) true true d
    lead ++ entry ++ entriesText indent false rest

end

/-- A section as the text of a configuration file. -/
def write (entries : Section) : List Char :=
  match sorted (.dict entries) with
  | .dict [] => "\x7b\x7d\n".toList
  | .dict entries => entriesText 0 true entries ++ ['\n']
  | _ => []

end ChartScript.Yaml
