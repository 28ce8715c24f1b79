import ChartScript.Syntax.Expression
import ChartScript.Syntax.Nesting
import ChartScript.Text.Blank

/-!
# Reading programs

A script is read line by line, and no line has an influence on how another one is read. A line has
one of three forms once the blanks at its ends are gone:

* an indicator line starts with the word `indicator`,
* an assignment is a name, an equals sign and an expression,
* a call is an expression that is nothing but a call.

A line that has none of the forms is dropped, and so is one whose expression cannot be read. Empty
lines and comments are ignored. The only failure is a number literal that has no value
(`UnreadableNumber`).
-/

namespace ChartScript

namespace Syntax

open ChartScript.Text (isBlank isWordChar trim trimStart)

/-- A number literal has digits without a place value, or too many digits. -/
inductive UnreadableNumber where
  /-- The literal has no value. -/
  | unreadableNumber
deriving DecidableEq

/-- What a line of a script says. -/
inductive Line where
  /-- Nothing, or a comment. -/
  | ignored
  /-- An indicator line. -/
  | indicator (text : String)
  /-- A statement. -/
  | statement (a : Assignment)
  /-- Something that is none of the forms. -/
  | dropped
deriving Inhabited

/-! ### Expressions -/

/-- The lexemes of a scan. -/
def Scan.lexemes (s : Scan) : List Lexeme := s.tokens.map Token.lexeme

/-- The expression that a row of lexemes spells, within the bound on nesting. -/
def boundedExpression? (lexemes : List Lexeme) : Option Node :=
  if nesting lexemes ≤ depthLimit then expression? lexemes else none

/-- The expression that a text spells, if it does. -/
def readExpression (text : List Char) : Except UnreadableNumber (Option Node) :=
  match scan text with
  | .ok scanned => .ok (boundedExpression? scanned.lexemes)
  | .error .unreadableNumber => .error .unreadableNumber
  | .error _ => .ok none

/-! ### The forms of a line -/

/-- Whether a character can start the name on the left of an assignment. -/
def isTargetStart (c : Char) : Bool := c.isAlpha || c == '_'

/-- Whether a character can stand in the name on the left of an assignment. -/
def isTargetChar (c : Char) : Bool := c.isAlphanum || c == '_'

/-- The name at the start of a line whose further characters are of the given class. -/
def leadingName? (isNameChar : Char → Bool) (line : List Char) :
    Option (List Char × List Char) :=
  match line with
  | c :: rest =>
    if isTargetStart c then some (c :: rest.takeWhile isNameChar, rest.dropWhile isNameChar)
    else none
  | [] => none

/-- Whether a line starts with the word `indicator`. -/
def isIndicatorLine (line : List Char) : Bool :=
  let word := "indicator".toList
  word.isPrefixOf line && !((line.drop word.length).head?.any isWordChar)

/-- Whether a line is a comment. -/
def isCommentLine (line : List Char) : Bool :=
  "//".toList.isPrefixOf line || "/*".toList.isPrefixOf line

/-- The name and the right-hand side of a line that looks like an assignment. -/
def assignmentParts? (line : List Char) : Option (List Char × List Char) := do
  let (target, rest) ← leadingName? isTargetChar line
  match trimStart rest with
  | '=' :: value =>
    let value := trimStart value
    if value.isEmpty then none else some (target, value)
  | _ => none

/-- Whether a line looks like a call: a name, perhaps blanks, and an opening parenthesis. -/
def looksLikeCall (line : List Char) : Bool :=
  match leadingName? (fun c => isTargetChar c || c == '.') line with
  | some (_, rest) => (trimStart rest).head? == some '('
  | none => false

/-- The assignment that a line is. -/
def readAssignment (line : List Char) : Except UnreadableNumber (Option Assignment) :=
  match assignmentParts? line with
  | none => .ok none
  | some (target, value) =>
    if String.ofList target = callTarget then .ok none
    else (readExpression value).map fun expr? =>
      expr?.map fun expr => { target := String.ofList target, expr }

/-- The call that a line is. -/
def readCall (line : List Char) : Except UnreadableNumber (Option Assignment) :=
  if looksLikeCall line then
    (readExpression line).map fun
      | some (.call callee args) => some { target := callTarget, expr := .call callee args }
      | _ => none
  else .ok none

/-- What a line without blanks at its ends says. -/
def readTrimmedLine (line : List Char) : Except UnreadableNumber Line :=
  if line.isEmpty || isCommentLine line then .ok .ignored
  else if isIndicatorLine line then .ok (.indicator (String.ofList line))
  else do
    match ← readAssignment line with
    | some a => return .statement a
    | none =>
      match ← readCall line with
      | some a => return .statement a
      | none => return .dropped

/-- What a line says. -/
def readLine (line : List Char) : Except UnreadableNumber Line := readTrimmedLine (trim line)

/-! ### Whole sources -/

/-- The lines of a text. -/
def lines : List Char → List (List Char)
  | [] => [[]]
  | c :: rest =>
    if c = '\n' then [] :: lines rest
    else
      match lines rest with
      | line :: more => (c :: line) :: more
      | [] => [[c]]

/-- A text has at least one line. -/
theorem lines_ne_nil (text : List Char) : lines text ≠ [] := by
  cases text with
  | nil => simp [lines]
  | cons c rest =>
    rw [lines]
    split
    · simp
    · split <;> simp

/-- The lines of two texts with a line break between them are those of the first and then those of
the second. -/
theorem lines_append (s t : List Char) : lines (s ++ '\n' :: t) = lines s ++ lines t := by
  induction s with
  | nil => simp [lines]
  | cons c s ih =>
    by_cases h : c = '\n'
    · simp [lines, h, ih]
    · cases hs : lines s with
      | nil => exact absurd hs (lines_ne_nil s)
      | cons line more => simp [lines, h, ih, hs]

/-- The indicator line that a line is. -/
def Line.indicator? : Line → Option String
  | .indicator text => some text
  | _ => none

/-- The statement that a line is. -/
def Line.statement? : Line → Option Assignment
  | .statement a => some a
  | _ => none

end Syntax

open Syntax

/-- The program that lines make up. -/
def Program.ofLines (lines : List Line) : Program where
  indicators := lines.filterMap Line.indicator?
  assignments := lines.filterMap Line.statement?

/-- The programs of two lists of lines, one after the other. -/
theorem Program.ofLines_append (xs ys : List Line) :
    Program.ofLines (xs ++ ys) =
      { indicators := (ofLines xs).indicators ++ (ofLines ys).indicators
        assignments := (ofLines xs).assignments ++ (ofLines ys).assignments } := by
  simp [ofLines]

/-- Reads a program. -/
def Program.read (source : String) : Except UnreadableNumber Program :=
  ((lines source.toList).mapM readLine).map Program.ofLines

end ChartScript
