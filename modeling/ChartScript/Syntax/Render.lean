import ChartScript.Syntax.Exchange
import ChartScript.Syntax.Nesting

/-!
# Writing programs

A program as source text, one line a statement. Operators have a space on either side, and an operand
stands in parentheses exactly when it binds less strongly than its place demands
(`Node.strength`): a power leans to the right and so demands more of its base, the other operators
lean to the left and demand more of their right operand. The named arguments of a call are written
behind the positional ones, as options in braces.
-/

namespace ChartScript

/-- Why a tree cannot be written. -/
inductive RenderError where
  /-- An operator between two operands is none of the five. -/
  | unknownOperator (op : String)
  /-- A literal holds a datum that is not of its kind. -/
  | unusable
  /-- The expression is nested too deeply. -/
  | tooDeep
deriving DecidableEq

namespace Syntax

open Datum (joined)

/-- How strongly an operator binds; an operator that is not known binds least. -/
def operatorStrength? (op : String) : Option Nat :=
  if op = "+" || op = "-" then some 1
  else if op = "*" || op = "/" then some 2
  else if op = "^" then some 3
  else none

/-- How strongly a sign binds. -/
def signStrength : Nat := 4

/-- How strongly a literal, a name, a list, a subscript and a call bind. -/
def primaryStrength : Nat := 5

/-- How strongly the outermost form of an expression binds. -/
def strength : Node → Nat
  | .binary op _ _ => (operatorStrength? op).getD 0
  | .unary _ _ => signStrength
  | _ => primaryStrength

/-- The strength that an operator of the given strength demands of its left and right operand. -/
def demands (op : String) (own : Nat) : Nat × Nat :=
  if op = "^" then (own + 1, own) else (own, own + 1)

/-- A text in parentheses where the expression it writes binds less strongly than demanded. -/
def wrapped (demanded : Nat) (node : Node) (text : List Char) : List Char :=
  if strength node < demanded then '(' :: text ++ [')'] else text

/-- A number literal. A truth value counts as zero or one. -/
def numberText : Datum → Except RenderError (List Char)
  | .bool b => .ok (Number.intText (Datum.ofBool b))
  | .int n => .ok (Number.intText n)
  | .float x => .ok (Number.floatText .positional x)
  | _ => .error .unusable

/-- The text that a string literal holds: a text, or texts to be put together. -/
def literalText : Datum → Except RenderError (List Char)
  | .text s => .ok s.toList
  | .list items =>
    match Exchange.texts items with
    | .ok texts => .ok (texts.flatMap String.toList)
    | .error _ => .error .unusable
  | .dict entries => .ok (entries.flatMap fun entry => entry.1.toList)
  | _ => .error .unusable

/-- Options in braces. -/
def optionsText (entries : List (List Char)) : List Char :=
  "\x7b ".toList ++ joined [',', ' '] entries ++ " \x7d".toList

/-- An option: a name and a value. -/
def optionText (entry : String × List Char) : List Char := entry.1.toList ++ ':' :: ' ' :: entry.2

/-- A call, from the texts of its positional and its named arguments. -/
def callText (callee : String) (positional : List (List Char))
    (named : List (String × List Char)) : List Char :=
  let options := if named.isEmpty then [] else [optionsText (named.map optionText)]
  callee.toList ++ '(' :: joined [',', ' '] (positional ++ options) ++ [')']

end Syntax

open Syntax

open Datum (joined)

mutual

/-- An expression as source text. -/
def Node.render : Node → Except RenderError (List Char)
  | .number value => numberText value
  | .string value => return stringLiteral (← literalText value)
  | .identifier name _ => .ok name.toList
  | .array items => return '[' :: joined [',', ' '] (← Node.renderAll items) ++ [']']
  | .index target position => do
    let targetText ← target.render
    return wrapped primaryStrength target targetText ++ '[' :: (← position.render) ++ [']']
  | .unary op operand => do
    let text ← operand.render
    return op.toList ++ wrapped signStrength operand text
  | .binary op left right =>
    match operatorStrength? op with
    | none => .error (.unknownOperator op)
    | some own => do
      let (atLeft, atRight) := demands op own
      let leftText ← left.render
      let rightText ← right.render
      return wrapped atLeft left leftText ++ ' ' :: op.toList ++ ' '
        :: wrapped atRight right rightText
  | .call callee args => do
    let (positional, named) := Node.renderArgs args
    let positionalTexts ← positional.mapM id
    let namedTexts ← named.mapM fun (name, text) => return (name, ← text)
    return callText callee positionalTexts namedTexts

/-- Several expressions as source text. -/
def Node.renderAll : List Node → Except RenderError (List (List Char))
  | [] => .ok []
  | node :: nodes => return (← node.render) :: (← Node.renderAll nodes)

/-- The arguments of a call as source text, taken apart into positional and named ones. -/
def Node.renderArgs :
    List Node → List (Except RenderError (List Char)) × List (String × Except RenderError (List Char))
  | [] => ([], [])
  | .identifier name true :: value :: rest =>
    let (positional, named) := Node.renderArgs rest
    (positional, (name, value.render) :: named)
  | arg :: rest =>
    let (positional, named) := Node.renderArgs rest
    (arg.render :: positional, named)

end

/-- Writing the arguments takes them apart as `Node.splitArgs` does. -/
theorem Node.renderArgs_eq (args : List Node) :
    Node.renderArgs args =
      ((Node.splitArgs args).1.map Node.render,
        (Node.splitArgs args).2.map fun entry => (entry.1, entry.2.render)) := by
  fun_induction Node.splitArgs args <;> simp_all [Node.renderArgs]

/-- Going down to write an expression: an operand is put into parentheses and a call is written in a call
of their own each, and so are items and arguments gone through. -/
def Node.Descent.writing : Node.Descent where
  leaf := 1
  item := 2
  target := 2
  position := 1
  operand := 2
  argument := 3

/-- A statement as source text. -/
def Assignment.render (a : Assignment) : Except RenderError (List Char) :=
  if depthLimit < a.expr.depth .writing then .error .tooDeep
  else do
    let text ← a.expr.render
    return if a.isCall then text else a.target.toList ++ " = ".toList ++ text

/-- A program as source text: one line a statement, with a line break between two. -/
def Program.render (p : Program) : Except RenderError (List Char) :=
  return joined ['\n'] (← p.assignments.mapM Assignment.render)

/-- The message about a tree that cannot be written, where it has one. -/
def RenderError.message? : RenderError → Option String
  | .unknownOperator op => some op
  | .unusable => none
  | .tooDeep => some "Expression nested too deeply to render"

end ChartScript
