import ChartScript.Number.Numeral
import ChartScript.Syntax.Escape
import ChartScript.Text.Quoted

/-!
# Tokens

A line of a script is cut into tokens. A *lexeme* is what a token says; a *token* is a lexeme with the
column at which it starts. Between tokens there may be spaces, tabs and carriage returns, and two
slashes start a comment that goes to the end.

* A number starts with a digit, or with a point before a digit. It has at most one point, which has a
  digit behind it.
* A string stands between two quotes of one kind.
* A name starts with a letter or an underscore and goes on with word characters. A point belongs to
  it where a letter or an underscore follows, so that `ta.sma` is one name.
* Every other token is a single mark.

`scan` cuts the whole text, one lexeme (`cut`) at a time.
-/

namespace ChartScript.Syntax

open ChartScript.Text (isDigit isLetter isWordChar)

/-- A token of a single character. -/
inductive Mark where
  /-- The sign `+`. -/
  | plus
  /-- The sign `-`. -/
  | minus
  /-- The operator `*`. -/
  | times
  /-- The operator `/`. -/
  | divide
  /-- The operator `^`. -/
  | power
  /-- The sign `=`. -/
  | assign
  /-- The sign `:`. -/
  | colon
  /-- An opening parenthesis. -/
  | leftParen
  /-- A closing parenthesis. -/
  | rightParen
  /-- An opening bracket. -/
  | leftBracket
  /-- A closing bracket. -/
  | rightBracket
  /-- An opening brace. -/
  | leftBrace
  /-- A closing brace. -/
  | rightBrace
  /-- A comma. -/
  | comma
deriving DecidableEq, Inhabited

namespace Mark

/-- The marks and their characters. -/
def table : List (Char × Mark) :=
  [('+', plus), ('-', minus), ('*', times), ('/', divide), ('^', power), ('=', assign),
   (':', colon), ('(', leftParen), (')', rightParen), ('[', leftBracket), (']', rightBracket),
   ('\x7b', leftBrace), ('\x7d', rightBrace), (',', comma)]

/-- The mark that a character is. -/
def ofChar? (c : Char) : Option Mark := table.lookup c

/-- The character of a mark. -/
def char : Mark → Char
  | plus => '+'
  | minus => '-'
  | times => '*'
  | divide => '/'
  | power => '^'
  | assign => '='
  | colon => ':'
  | leftParen => '('
  | rightParen => ')'
  | leftBracket => '['
  | rightBracket => ']'
  | leftBrace => '\x7b'
  | rightBrace => '\x7d'
  | comma => ','

/-- The character of a mark is read back as the mark. -/
@[simp] theorem ofChar?_char (m : Mark) : ofChar? m.char = some m := by
  cases m <;> decide

end Mark

/-- What a token says. -/
inductive Lexeme where
  /-- An integer literal. -/
  | int (n : Nat)
  /-- A float literal. -/
  | float (x : Float)
  /-- A string literal, with its escapes resolved. -/
  | string (s : String)
  /-- A name of one or more segments. -/
  | name (s : String)
  /-- A mark. -/
  | mark (m : Mark)
deriving Inhabited

/-- A token: a lexeme and the column of its first character, where the first column is 1. -/
structure Token where
  /-- What the token says. -/
  lexeme : Lexeme
  /-- The column of its first character. -/
  column : Nat
deriving Inhabited

/-- A text cut into tokens. -/
structure Scan where
  /-- The tokens, in order. -/
  tokens : List Token
  /-- The column behind the last token: that of a comment at the end, or of the end itself. -/
  stop : Nat

/-- Why a text cannot be cut into tokens. -/
inductive LexError where
  /-- A character starts no token. -/
  | unexpected (c : Char) (column : Nat)
  /-- A string has no closing quote; the column is that of the opening one. -/
  | unterminated (column : Nat)
  /-- A number literal has digits without a place value, or too many of them. -/
  | unreadableNumber
deriving DecidableEq

/-- The message of a failure, without the column. -/
def LexError.reason : LexError → String
  | .unexpected c _ => "Unexpected character " ++ String.ofList (Text.quoted [c])
  | .unterminated _ => "Unterminated string literal"
  | .unreadableNumber => "Unreadable number"

/-- The column at which a text stops to make sense. -/
def LexError.column : LexError → Nat
  | .unexpected _ column => column
  | .unterminated column => column
  | .unreadableNumber => 1

/-- The message of a failure. -/
def LexError.message (e : LexError) : String :=
  e.reason ++ " (col " ++ String.ofList (Number.natText e.column) ++ ")"

/-- The lexeme at the start of a text: what it says, the characters it is made of and the rest. -/
structure Cut where
  /-- What the lexeme says. -/
  lexeme : Lexeme
  /-- The characters of the lexeme. -/
  raw : List Char
  /-- What follows the lexeme. -/
  rest : List Char

/-! ### Names -/

/-- Whether a character can start a segment of a name. -/
def isNameStart (c : Char) : Bool := isLetter c || c == '_'

/-- Splits off the rest of a name: word characters, and points that start a new segment. -/
def nameRest : List Char → List Char × List Char
  | '.' :: c :: rest =>
    if isNameStart c then
      let (name, after) := nameRest rest
      ('.' :: c :: name, after)
    else ([], '.' :: c :: rest)
  | c :: rest =>
    if isWordChar c then
      let (name, after) := nameRest rest
      (c :: name, after)
    else ([], c :: rest)
  | [] => ([], [])

/-- Nothing is lost when a name is split off. -/
theorem nameRest_append (text : List Char) : (nameRest text).1 ++ (nameRest text).2 = text := by
  fun_induction nameRest text <;> simp_all

/-! ### Numbers -/

/-- Splits off the fraction behind the digits of a number: a point and the digits behind it, if there
are any. -/
def fractionRest : List Char → Option (List Char) × List Char
  | '.' :: c :: rest =>
    if isDigit c then (some (c :: rest.takeWhile isDigit), rest.dropWhile isDigit)
    else (none, '.' :: c :: rest)
  | rest => (none, rest)

/-- The number literal at the start of a text. -/
def cutNumber (text : List Char) : Except LexError Cut :=
  let whole := text.takeWhile isDigit
  match fractionRest (text.dropWhile isDigit) with
  | (none, rest) =>
    match Number.literalInt? whole with
    | some n => .ok { lexeme := .int n, raw := whole, rest }
    | none => .error .unreadableNumber
  | (some fraction, rest) =>
    match Number.literalFloat? whole fraction with
    | some x => .ok { lexeme := .float x, raw := whole ++ '.' :: fraction, rest }
    | none => .error .unreadableNumber

/-- Nothing is lost when a fraction is split off. -/
theorem fractionRest_append (text : List Char) :
    ((fractionRest text).1.elim [] ('.' :: ·)) ++ (fractionRest text).2 = text := by
  fun_cases fractionRest text <;> simp_all

/-! ### The lexeme at the start -/

/-- Whether a character and the text behind it start a number. -/
def startsNumber (c : Char) (rest : List Char) : Bool :=
  isDigit c || (c == '.' && rest.head?.any isDigit)

/-- The lexeme that starts with the character `c` at the given column. -/
def cut (column : Nat) (c : Char) (rest : List Char) : Except LexError Cut :=
  if startsNumber c rest then cutNumber (c :: rest)
  else if c = '"' || c = '\'' then
    match stringBody? c rest with
    | none => .error (.unterminated column)
    | some (body, after) =>
      .ok { lexeme := .string (String.ofList (unescape body)), raw := c :: body ++ [c],
            rest := after }
  else if isNameStart c then
    let (name, after) := nameRest rest
    .ok { lexeme := .name (String.ofList (c :: name)), raw := c :: name, rest := after }
  else
    match Mark.ofChar? c with
    | some m => .ok { lexeme := .mark m, raw := [c], rest }
    | none => .error (.unexpected c column)

/-- A number literal and the rest make up the text. -/
theorem cutNumber_append {text : List Char} {found : Cut} (h : cutNumber text = .ok found) :
    found.raw ++ found.rest = text := by
  have split := fractionRest_append (text.dropWhile isDigit)
  simp only [cutNumber] at h
  split at h
  · rename_i rest heq
    rw [heq] at split
    split at h
    · cases h
      simp only [Option.elim, List.nil_append] at split
      simp [split]
    · cases h
  · rename_i fraction rest heq
    rw [heq] at split
    split at h
    · cases h
      simp only [Option.elim] at split
      rw [List.append_assoc, split, List.takeWhile_append_dropWhile]
    · cases h

/-- A lexeme and the rest make up the text. -/
theorem cut_append {column : Nat} {c : Char} {rest : List Char} {found : Cut}
    (h : cut column c rest = .ok found) : found.raw ++ found.rest = c :: rest := by
  simp only [cut] at h
  split at h
  · exact cutNumber_append h
  · split at h
    · split at h
      · cases h
      · rename_i body after heq
        cases h
        simpa using stringBody?_append heq
    · split at h
      · cases h
        simpa using nameRest_append rest
      · split at h
        · cases h; rfl
        · cases h

/-- A literal that starts a number is not empty. -/
theorem cutNumber_raw_ne_nil {c : Char} {rest : List Char} {found : Cut}
    (starts : startsNumber c rest = true) (h : cutNumber (c :: rest) = .ok found) :
    found.raw ≠ [] := by
  simp only [cutNumber] at h
  split at h
  · rename_i after heq
    split at h
    · cases h
      simp only [List.takeWhile_cons]
      split
      · simp
      · rename_i notDigit
        simp only [startsNumber, Bool.or_eq_true, Bool.and_eq_true, beq_iff_eq] at starts
        rcases starts with digit | ⟨rfl, digit⟩
        · exact absurd digit notDigit
        · cases rest with
          | nil => simp at digit
          | cons d rest =>
            simp only [List.head?_cons, Option.any_some] at digit
            simp [notDigit, fractionRest, digit] at heq
    · cases h
  · split at h
    · cases h; simp
    · cases h

/-- A lexeme is not empty. -/
theorem cut_raw_ne_nil {column : Nat} {c : Char} {rest : List Char} {found : Cut}
    (h : cut column c rest = .ok found) : found.raw ≠ [] := by
  simp only [cut] at h
  split at h
  · rename_i starts
    exact cutNumber_raw_ne_nil starts h
  · split at h
    · split at h
      · cases h
      · cases h; simp
    · split at h
      · cases h; simp
      · split at h
        · cases h; simp
        · cases h

/-- What follows a lexeme is shorter than the text. -/
theorem cut_rest_length {column : Nat} {c : Char} {rest : List Char} {found : Cut}
    (h : cut column c rest = .ok found) : found.rest.length ≤ rest.length := by
  have whole := congrArg List.length (cut_append h)
  have := List.length_pos_iff.2 (cut_raw_ne_nil h)
  simp only [List.length_append, List.length_cons] at whole
  omega

/-! ### The whole text -/

/-- Whether a character separates tokens. -/
def isSpacing (c : Char) : Bool := c == ' ' || c == '\t' || c == '\r'

/-- Whether a character and the text behind it start a comment. -/
def startsComment (c : Char) (rest : List Char) : Bool := c == '/' && rest.head? == some '/'

/-- Cuts a text that starts at the given column into tokens. -/
def scanFrom (column : Nat) (text : List Char) : Except LexError Scan :=
  match text with
  | [] => .ok { tokens := [], stop := column }
  | c :: rest =>
    if isSpacing c then scanFrom (column + 1) rest
    else if startsComment c rest then .ok { tokens := [], stop := column }
    else
      match h : cut column c rest with
      | .error e => .error e
      | .ok found =>
        have := cut_rest_length h
        match scanFrom (column + found.raw.length) found.rest with
        | .error e => .error e
        | .ok more => .ok { more with tokens := ⟨found.lexeme, column⟩ :: more.tokens }
termination_by text.length
decreasing_by all_goals (simp only [List.length_cons]; omega)

/-- A text fails where its first lexeme does. -/
theorem scanFrom_error {column : Nat} {c : Char} {rest : List Char} {e : LexError}
    (spacing : isSpacing c = false) (comment : startsComment c rest = false)
    (h : cut column c rest = .error e) : scanFrom column (c :: rest) = .error e := by
  rw [scanFrom, if_neg (by simp [spacing]), if_neg (by simp [comment])]
  split <;> rename_i heq <;> rw [h] at heq <;> cases heq
  rfl

/-- Behind its first lexeme a text goes on from where the lexeme ends. -/
theorem scanFrom_cons {column : Nat} {c : Char} {rest : List Char} {found : Cut}
    (spacing : isSpacing c = false) (comment : startsComment c rest = false)
    (h : cut column c rest = .ok found) :
    scanFrom column (c :: rest) =
      match scanFrom (column + found.raw.length) found.rest with
      | .error e => .error e
      | .ok more => .ok { more with tokens := ⟨found.lexeme, column⟩ :: more.tokens } := by
  rw [scanFrom, if_neg (by simp [spacing]), if_neg (by simp [comment])]
  split <;> rename_i heq <;> rw [h] at heq <;> cases heq
  rfl

/-- Cuts a text into tokens. -/
def scan (text : List Char) : Except LexError Scan := scanFrom 1 text

end ChartScript.Syntax
