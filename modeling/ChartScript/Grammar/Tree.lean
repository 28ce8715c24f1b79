import ChartScript.Data.Datum
import ChartScript.Grammar.Word

/-!
# Trees with spans

What the grammar's reader makes of a source: trees of which every node says which stretch of the
source it takes up. They are exchanged in a form of their own, in which a named argument is a node
and the parts have other names than in plain trees.

Literals are still text here. `Script.toDatum` gives them their values, bottom up and from left to
right, and refuses a number that has none and a statement that assigns to the reserved target.
-/

namespace ChartScript.Grammar

/-- An expression with spans. -/
inductive Tree where
  /-- A number literal, as its digits. -/
  | number (whole : List Char) (fraction : Option (List Char)) (span : Span)
  /-- A string literal, as the text between its quotes. -/
  | string (body : List Char) (span : Span)
  /-- A name. -/
  | identifier (name : String) (span : Span)
  /-- A list of expressions. -/
  | array (items : List Tree) (span : Span)
  /-- A subscript. -/
  | index (target position : Tree) (span : Span)
  /-- A sign before an expression. -/
  | unary (op : String) (operand : Tree) (span : Span)
  /-- An operator between two expressions. -/
  | binary (op : String) (left right : Tree) (span : Span)
  /-- A call. -/
  | call (callee : String) (args : List Tree) (span : Span)
  /-- A named argument of a call. -/
  | named (name : String) (value : Tree) (span : Span)
deriving Inhabited

/-- A statement with its span. -/
inductive Statement where
  /-- An indicator line. -/
  | indicator (text : String)
  /-- An assignment. -/
  | assignment (target : String) (expr : Tree) (span : Span)
  /-- A call. -/
  | call (callee : String) (args : List Tree) (span : Span)
deriving Inhabited

/-- A source with spans. -/
structure Script where
  /-- The statements, in order. -/
  statements : List Statement
  /-- The stretch from the first to the last word, if there is a word. -/
  span : Option Span

/-- Why the grammar refuses a source. -/
inductive GrammarError where
  /-- The word at a place does not fit. -/
  | misplaced (place : Position)
  /-- A statement on a line assigns to the reserved target. -/
  | reserved (line : Nat)
  /-- A number literal has no value. -/
  | unreadableNumber
deriving DecidableEq

/-- The message of a refusal. -/
def GrammarError.message : GrammarError → String
  | .misplaced place =>
    String.ofList (Number.natText place.line ++ ':' :: Number.natText place.column)
  | .reserved line =>
    "Reserved assignment target '_call' at line " ++ String.ofList (Number.natText line)
  | .unreadableNumber => "VisitError"

/-! ### Plain data -/

/-- A span as plain data. -/
def Span.toDatum (span : Span) : Datum :=
  .dict [("line", .int span.start.line), ("column", .int span.start.column),
    ("end_line", .int span.stop.line), ("end_column", .int span.stop.column)]

/-- The span of nothing as plain data. -/
def noSpan : Datum :=
  .dict [("line", .null), ("column", .null), ("end_line", .null), ("end_column", .null)]

/-- A dictionary for a node of a kind, with its parts and its span. -/
def nodeDatum (kind : String) (parts : List (String × Datum)) (loc : Datum) : Datum :=
  .dict (("type", .text kind) :: parts ++ [("loc", loc)])

/-- The value of a number literal. -/
def numberDatum (whole : List Char) (fraction : Option (List Char)) :
    Except GrammarError Datum :=
  match fraction with
  | none =>
    match Number.literalInt? whole with
    | some n => .ok (.int n)
    | none => .error .unreadableNumber
  | some fraction =>
    match Number.literalFloat? whole fraction with
    | some x => .ok (.float x)
    | none => .error .unreadableNumber

mutual

/-- An expression as plain data. -/
def Tree.toDatum : Tree → Except GrammarError Datum
  | .number whole fraction span =>
    return nodeDatum "Number" [("value", ← numberDatum whole fraction)] span.toDatum
  | .string body span =>
    return nodeDatum "String" [("value", .text (String.ofList (Syntax.unescape body)))] span.toDatum
  | .identifier name span => return nodeDatum "Identifier" [("name", .text name)] span.toDatum
  | .array items span =>
    return nodeDatum "Array" [("items", .list (← Tree.toData items))] span.toDatum
  | .index target position span =>
    return nodeDatum "Index" [("object", ← target.toDatum), ("index", ← position.toDatum)]
      span.toDatum
  | .unary op operand span =>
    return nodeDatum "Unary" [("operator", .text op), ("argument", ← operand.toDatum)]
      span.toDatum
  | .binary op left right span =>
    return nodeDatum "Binary"
      [("operator", .text op), ("left", ← left.toDatum), ("right", ← right.toDatum)] span.toDatum
  | .call callee args span =>
    return nodeDatum "Call" [("callee", .text callee), ("args", .list (← Tree.toData args))]
      span.toDatum
  | .named name value span =>
    return nodeDatum "NamedArg" [("name", .text name), ("value", ← value.toDatum)] span.toDatum

/-- Several expressions as plain data. -/
def Tree.toData : List Tree → Except GrammarError (List Datum)
  | [] => .ok []
  | tree :: trees => return (← tree.toDatum) :: (← Tree.toData trees)

end

/-- An assignment as plain data. -/
def assignmentDatum (target : Datum) (expr : Datum) (span : Span) : Datum :=
  nodeDatum "Assignment" [("id", target), ("expr", expr)] span.toDatum

/-- The text of an indicator line. -/
def Statement.indicator? : Statement → Option Datum
  | .indicator text => some (.text text)
  | _ => none

/-- A statement that is no indicator line as plain data. -/
def Statement.toDatum? : Statement → Except GrammarError (Option Datum)
  | .indicator _ => .ok none
  | .assignment target expr span => do
    let value ← expr.toDatum
    if target = "_call" then .error (.reserved span.start.line)
    else return some (assignmentDatum (.text target) value span)
  | .call callee args span => do
    let call ← (Tree.call callee args span).toDatum
    return some (assignmentDatum .null call span)

/-- A source as plain data. -/
def Script.toDatum (s : Script) : Except GrammarError Datum := do
  let assignments ← s.statements.mapM Statement.toDatum?
  return nodeDatum "Program"
    [("indicators", .list (s.statements.filterMap Statement.indicator?)),
      ("assignments", .list (assignments.filterMap id))]
    ((s.span.map Span.toDatum).getD noSpan)

end ChartScript.Grammar
