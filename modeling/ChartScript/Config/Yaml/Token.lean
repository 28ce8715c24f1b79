import ChartScript.Text.Hex

/-!
# Tokens of a configuration file

The text of a configuration file as a row of tokens (`Yaml.tokens?`). Structure comes from marks and
from indentation: a deeper column opens a block and a lesser one closes blocks, and inside brackets
indentation does not count.

What makes this more than cutting a text up is that a key is known as one only when its colon is met.
Every place where a key can start is therefore kept as a *candidate* (`Candidate`), with the number of
tokens in front of it; a colon puts the key mark there afterwards (`Scan.markKey`). A candidate is
given up when its line ends, and that is an error where nothing but a key can stand.
-/

namespace ChartScript.Yaml

/-- A token. -/
inductive Token where
  /-- A word, plain or in quotes. -/
  | scalar (isPlain : Bool) (text : List Char)
  /-- The start of a block of items. -/
  | openItems
  /-- The start of a block of entries. -/
  | openEntries
  /-- The end of a block. -/
  | closeBlock
  /-- The dash in front of an item. -/
  | item
  /-- The start of a key. -/
  | key
  /-- The colon behind a key. -/
  | value
  /-- An opening bracket. -/
  | openList
  /-- A closing bracket. -/
  | closeList
  /-- An opening brace. -/
  | openDict
  /-- A closing brace. -/
  | closeDict
  /-- A comma. -/
  | comma
  /-- The start of a document. -/
  | documentStart
  /-- The end of a document. -/
  | documentEnd
deriving Inhabited

/-! ### Characters -/

/-- Whether a character ends a line. -/
def isBreak (c : Char) : Bool :=
  c == '\n' || c == '\r' || c == '\x85' || c == '\u2028' || c == '\u2029'

/-- Whether there is nothing, a blank or the end of a line. -/
def isGap : Option Char → Bool
  | none => true
  | some c => c == ' ' || c == '\t' || c == '\x00' || isBreak c

/-- What the end of a line counts as inside a word. -/
def breakChar (c : Char) : Char := if c == '\u2028' || c == '\u2029' then c else '\n'

/-- Whether a character can stand in a configuration file. -/
def isAllowed (c : Char) : Bool :=
  let n := c.toNat
  n == 9 || n == 10 || n == 13 || n == 0x85 || (0x20 ≤ n && n ≤ 0x7E) || (0xA0 ≤ n && n ≤ 0xFFFD)
    || (0x10000 ≤ n && n ≤ 0x10FFFF)

/-- Whether a text starts with the mark of the start or the end of a document. -/
def isDocumentMark (text : List Char) : Bool :=
  (text.take 3 == ['-', '-', '-'] || text.take 3 == ['.', '.', '.']) && isGap (text.drop 3).head?

/-- The marks that cannot start a plain word, whatever follows. -/
def marks : List Char := "-?:,[]\x7b\x7d#&*!|>'\"%@`".toList

/-- Whether a plain word starts here. -/
def startsPlain (inBrackets : Bool) (text : List Char) : Bool :=
  match text with
  | [] => false
  | c :: rest =>
    !isGap (some c) && (!marks.contains c
      || (!isGap rest.head? && (c == '-' || (!inBrackets && (c == '?' || c == ':')))))

/-! ### Words in quotes -/

/-- The characters that a letter stands for behind a backslash. -/
def escapes : List (Char × Char) :=
  [('0', '\x00'), ('a', '\x07'), ('b', '\x08'), ('t', '\t'), ('\t', '\t'), ('n', '\n'),
   ('v', '\x0b'), ('f', '\x0c'), ('r', '\r'), ('e', '\x1b'), (' ', ' '), ('"', '"'),
   ('\\', '\\'), ('/', '/'), ('N', '\x85'), ('_', '\xa0'), ('L', '\u2028'), ('P', '\u2029')]

/-- The number of hexadecimal digits behind a letter. -/
def codeWidth? : Char → Option Nat
  | 'x' => some 2
  | 'u' => some 4
  | 'U' => some 8
  | _ => none

/-- The empty lines inside a word in quotes, and what follows them; a document must not end there. -/
def quotedBreaks : Nat → List Char → Option (List Char × List Char)
  | 0, _ => none
  | fuel + 1, text =>
    if isDocumentMark text then none
    else
      match text.dropWhile fun c => c == ' ' || c == '\t' with
      | c :: rest =>
        if isBreak c then
          (quotedBreaks fuel rest).map fun (breaks, rest) => (breakChar c :: breaks, rest)
        else some ([], c :: rest)
      | [] => some ([], [])

/-- The blanks that a line break inside a word counts as: one blank, unless empty lines follow. -/
def folded (c : Char) (breaks : List Char) : List Char :=
  if breakChar c != '\n' then breakChar c :: breaks
  else if breaks.isEmpty then [' ']
  else breaks

/-- A character behind a backslash, and what follows it. -/
def escaped : List Char → Option (List Char × List Char)
  | [] => none
  | c :: rest =>
    match escapes.lookup c, codeWidth? c with
    | some e, _ => some ([e], rest)
    | none, some width => do
      let (n, rest) ← Text.readHex? width rest
      if n.isValidChar then some ([Char.ofNat n], rest) else none
    | none, none => if isBreak c then quotedBreaks (rest.length + 1) rest else none

/-- The text up to the closing quote, and what follows it. -/
def quotedText (double : Bool) : Nat → List Char → Option (List Char × List Char)
  | 0, _ | _, [] => none
  | fuel + 1, c :: rest =>
    if c == ' ' || c == '\t' then
      let blanks := (c :: rest).takeWhile fun c => c == ' ' || c == '\t'
      match (c :: rest).dropWhile fun c => c == ' ' || c == '\t' with
      | [] => none
      | next :: more =>
        if isBreak next then more' fuel next more
        else prepend blanks (quotedText double fuel (next :: more))
    else if isBreak c then more' fuel c rest
    else if double then
      if c == '"' then some ([], rest)
      else if c == '\\' then do
        let (text, rest) ← escaped rest
        prepend text (quotedText double fuel rest)
      else prepend [c] (quotedText double fuel rest)
    else if c == '\'' then
      match rest with
      | '\'' :: rest => prepend ['\''] (quotedText double fuel rest)
      | rest => some ([], rest)
    else prepend [c] (quotedText double fuel rest)
where
  /-- Puts a text in front. -/
  prepend (text : List Char) (result : Option (List Char × List Char)) :
      Option (List Char × List Char) :=
    result.map fun (more, rest) => (text ++ more, rest)
  /-- Goes on behind a line break. -/
  more' (fuel : Nat) (c : Char) (rest : List Char) : Option (List Char × List Char) := do
    let (breaks, rest) ← quotedBreaks (rest.length + 1) rest
    prepend (folded c breaks) (quotedText double fuel rest)

/-! ### The state of the scan -/

/-- A place where a key can start. -/
structure Candidate where
  /-- The number of tokens in front of it. -/
  number : Nat
  /-- Whether nothing but a key can stand there. -/
  isRequired : Bool
  /-- The line. -/
  line : Nat
  /-- The column. -/
  column : Nat
  /-- The number of characters in front of it. -/
  offset : Nat

/-- The state of a scan. -/
structure Scan where
  /-- The text that is left. -/
  rest : List Char
  /-- The line. -/
  line : Nat
  /-- The column. -/
  column : Nat
  /-- The number of characters before. -/
  offset : Nat
  /-- The column of the innermost block, which is negative outside all blocks. -/
  indent : Int
  /-- The columns of the blocks around it. -/
  outer : List Int
  /-- The number of open brackets. -/
  depth : Nat
  /-- Whether a key can start here. -/
  keyAllowed : Bool
  /-- The candidates at the open brackets, from the innermost outwards. -/
  candidates : List (Option Candidate)
  /-- The tokens so far. -/
  tokens : List Token

namespace Scan

/-- The start of a scan. -/
def start (text : List Char) : Scan where
  rest := text
  line := 0
  column := 0
  offset := 0
  indent := -1
  outer := []
  depth := 0
  keyAllowed := true
  candidates := [none]
  tokens := []

/-- Moves over a character. -/
def move (s : Scan) (c : Char) : Scan :=
  if isBreak c then { s with line := s.line + 1, column := 0, offset := s.offset + 1 }
  else
    { s with column := if c == '\uFEFF' then s.column else s.column + 1, offset := s.offset + 1 }

/-- Moves to a later place of the text, of which the rest is given. -/
def moveTo (s : Scan) (rest : List Char) : Scan :=
  { (s.rest.take (s.rest.length - rest.length)).foldl move s with rest }

/-- Moves over a number of characters. -/
def skip (number : Nat) (s : Scan) : Scan := s.moveTo (s.rest.drop number)

/-- Adds a token. -/
def push (t : Token) (s : Scan) : Scan := { s with tokens := s.tokens ++ [t] }

/-- The candidate at the innermost bracket. -/
def candidate? (s : Scan) : Option Candidate := s.candidates.head?.join

/-- Sets the candidate at the innermost bracket. -/
def setCandidate (c : Option Candidate) (s : Scan) : Scan :=
  { s with candidates := c :: s.candidates.drop 1 }

/-- Gives the candidate at the innermost bracket up. -/
def dropCandidate (s : Scan) : Option Scan :=
  match s.candidate? with
  | some c => if c.isRequired then none else some (s.setCandidate none)
  | none => some s

/-- The number of characters that a key can have. -/
def keyLimit : Nat := 1024

/-- Whether a candidate is on another line or too far away. -/
def isStale (s : Scan) (c : Candidate) : Bool := c.line != s.line || keyLimit < s.offset - c.offset

/-- Gives the candidates up that are on another line or too far away. -/
def dropStale (s : Scan) : Option Scan :=
  if s.candidates.any (·.any fun c => s.isStale c && c.isRequired) then none
  else
    some { s with candidates := s.candidates.map fun c? => c?.filter fun c => !s.isStale c }

/-- Makes this place a candidate, if a key can start here. -/
def addCandidate (s : Scan) : Option Scan :=
  if s.keyAllowed then do
    let s ← s.dropCandidate
    return s.setCandidate (some
      { number := s.tokens.length
        isRequired := s.depth == 0 && s.indent == s.column
        line := s.line
        column := s.column
        offset := s.offset })
  else some s

/-- Opens a block at a column, if it is deeper; the flag tells. -/
def deepen (column : Nat) (s : Scan) : Bool × Scan :=
  if s.indent < column then
    (true, { s with indent := column, outer := s.indent :: s.outer })
  else (false, s)

/-- Closes the blocks that are deeper than a column. -/
def closeTo (column : Int) : Nat → Scan → Scan
  | 0, s => s
  | fuel + 1, s =>
    if column < s.indent then
      closeTo column fuel
        ({ s with indent := s.outer.headD (-1), outer := s.outer.drop 1 }.push .closeBlock)
    else s

/-- Closes the blocks that a column ends. -/
def unwind (column : Int) (s : Scan) : Scan :=
  if s.depth = 0 then closeTo column (s.outer.length + 1) s else s

/-! ### Between tokens -/

/-- Moves over blanks, comments and line ends. -/
def toNext : Nat → Scan → Scan
  | 0, s => s
  | fuel + 1, s =>
    let s := s.moveTo (s.rest.dropWhile (· == ' '))
    let s := if s.rest.head? == some '#' then s.moveTo (s.rest.dropWhile (!isBreak ·)) else s
    match s.rest with
    | c :: _ =>
      if isBreak c then
        let s := s.skip 1
        toNext fuel (if s.depth = 0 then { s with keyAllowed := true } else s)
      else s
    | [] => s

/-! ### Plain words -/

/-- The characters of a plain word up to a blank or a mark that ends it. -/
def plainChunk (inBrackets : Bool) : List Char → List Char
  | [] => []
  | c :: rest =>
    let closing := "[]\x7b\x7d,".toList
    let ends := isGap (some c)
      || (c == ':' && (isGap rest.head? || (inBrackets && rest.head?.any closing.contains)))
      || (inBrackets && (c == '?' || closing.contains c))
    if ends then [] else c :: plainChunk inBrackets rest

/-- The empty lines inside a plain word; there are none if a document ends. -/
def plainBreaks : Nat → Scan → Option (List Char) × Scan
  | 0, s => (none, s)
  | fuel + 1, s =>
    match s.rest with
    | ' ' :: _ => plainBreaks fuel (s.skip 1)
    | c :: _ =>
      if isBreak c then
        let s := s.skip 1
        if isDocumentMark s.rest then (none, s)
        else
          let (breaks?, s) := plainBreaks fuel s
          (breaks?.map (breakChar c :: ·), s)
      else (some [], s)
    | [] => (some [], s)

/-- The blanks inside a plain word, as which line ends count. -/
def plainBlanks (s : Scan) : List Char × Scan :=
  let blanks := s.rest.takeWhile (· == ' ')
  let s := s.moveTo (s.rest.dropWhile (· == ' '))
  match s.rest with
  | c :: _ =>
    if isBreak c then
      let s := { s.skip 1 with keyAllowed := true }
      if isDocumentMark s.rest then ([], s)
      else
        match plainBreaks (s.rest.length + 1) s with
        | (some breaks, s) => (folded c breaks, s)
        | (none, s) => ([], s)
    else (blanks, s)
  | [] => (blanks, s)

/-- A plain word, in front of which there was a text and blanks. -/
def plainFrom : Nat → List Char → List Char → Scan → List Char × Scan
  | 0, text, _, s => (text, s)
  | fuel + 1, text, blanks, s =>
    let chunk := plainChunk (s.depth != 0) s.rest
    if s.rest.head? == some '#' || chunk.isEmpty then (text, s)
    else
      let text := text ++ blanks ++ chunk
      let (blanks, s) := plainBlanks { s.skip chunk.length with keyAllowed := false }
      if blanks.isEmpty || s.rest.head? == some '#'
        || (s.depth == 0 && decide ((s.column : Int) < s.indent + 1)) then (text, s)
      else plainFrom fuel text blanks s

/-! ### One token -/

/-- Adds the mark of the start or the end of a document. -/
def addDocumentMark (s : Scan) : Option Scan := do
  let s ← (s.unwind (-1)).dropCandidate
  let mark := if s.rest.head? == some '-' then Token.documentStart else .documentEnd
  return { s.skip 3 with keyAllowed := false }.push mark

/-- Opens a bracket. -/
def openBracket (t : Token) (s : Scan) : Option Scan := do
  let s ← s.addCandidate
  return { s.skip 1 with
    depth := s.depth + 1, keyAllowed := true, candidates := none :: s.candidates }.push t

/-- Closes a bracket. -/
def closeBracket (t : Token) (s : Scan) : Option Scan :=
  if s.depth = 0 then none
  else do
    let s ← s.dropCandidate
    return { s.skip 1 with
      depth := s.depth - 1, keyAllowed := false, candidates := s.candidates.drop 1 }.push t

/-- Opens a block of entries or items at this place, if it is deeper and not in brackets; a key must
be possible here. -/
def openHere (t : Token) (s : Scan) : Option Scan :=
  if s.depth ≠ 0 then some s
  else if !s.keyAllowed then none
  else
    let (deeper, s) := s.deepen s.column
    some (if deeper then s.push t else s)

/-- Adds a comma. -/
def addComma (s : Scan) : Option Scan := do
  let s ← { s with keyAllowed := true }.dropCandidate
  return (s.skip 1).push .comma

/-- Adds the dash in front of an item. -/
def addItem (s : Scan) : Option Scan := do
  let s ← s.openHere .openItems
  let s ← { s with keyAllowed := true }.dropCandidate
  return (s.skip 1).push .item

/-- Adds the question mark in front of a key. -/
def addKey (s : Scan) : Option Scan := do
  let s ← s.openHere .openEntries
  let s ← { s with keyAllowed := s.depth == 0 }.dropCandidate
  return (s.skip 1).push .key

/-- Puts the mark of a key, and of the block that it opens, in front of a candidate. -/
def markKey (c : Candidate) (s : Scan) : Scan :=
  let (deeper, s') := if s.depth = 0 then s.deepen c.column else (false, s)
  let marks := if deeper then [Token.openEntries, .key] else [.key]
  { s' with
    tokens := s.tokens.take c.number ++ marks ++ s.tokens.drop c.number
    keyAllowed := false }.setCandidate none

/-- Adds the colon behind a key. -/
def addValue (s : Scan) : Option Scan :=
  match s.candidate? with
  | some c => some (((s.markKey c).skip 1).push .value)
  | none => do
    let s ← s.openHere .openEntries
    let s ← { s with keyAllowed := s.depth == 0 }.dropCandidate
    return (s.skip 1).push .value

/-- Adds a word in quotes. -/
def addQuoted (double : Bool) (s : Scan) : Option Scan := do
  let s ← s.addCandidate
  let (text, rest) ← quotedText double (s.rest.length + 1) (s.rest.drop 1)
  return { s.moveTo rest with keyAllowed := false }.push (.scalar false text)

/-- Adds a plain word. -/
def addPlain (s : Scan) : Option Scan := do
  let s ← s.addCandidate
  let (text, s) := plainFrom (s.rest.length + 1) [] [] { s with keyAllowed := false }
  return s.push (.scalar true text)

/-- Adds the token that starts here. -/
def addToken (s : Scan) : Option Scan :=
  match s.rest with
  | [] => none
  | c :: rest =>
    if s.column = 0 && c == '%' then none
    else if s.column = 0 && isDocumentMark s.rest then s.addDocumentMark
    else if c == '[' then s.openBracket .openList
    else if c == '\x7b' then s.openBracket .openDict
    else if c == ']' then s.closeBracket .closeList
    else if c == '\x7d' then s.closeBracket .closeDict
    else if c == ',' then s.addComma
    else if c == '-' && isGap rest.head? then s.addItem
    else if c == '?' && (s.depth != 0 || isGap rest.head?) then s.addKey
    else if c == ':' && (s.depth != 0 || isGap rest.head?) then s.addValue
    else if c == '\'' then s.addQuoted false
    else if c == '"' then s.addQuoted true
    else if startsPlain (s.depth != 0) s.rest then s.addPlain
    else none

/-- Adds all tokens. -/
def run : Nat → Scan → Option (List Token)
  | 0, _ => none
  | fuel + 1, s => do
    let s ← (toNext (s.rest.length + 1) s).dropStale
    let s := s.unwind s.column
    if s.rest.isEmpty then
      let s ← (s.unwind (-1)).dropCandidate
      return s.tokens
    else run fuel (← s.addToken)

end Scan

/-- The tokens of a text. A byte order mark at its start does not count. -/
def tokens? (text : List Char) : Option (List Token) :=
  let text := match text with
    | '\uFEFF' :: rest => rest
    | text => text
  if text.all isAllowed then (Scan.start text).run (text.length + 1) else none

end ChartScript.Yaml
