import ChartScript.Syntax.Nesting
import ChartScript.Syntax.Node

/-!
# The star namespace

A program is made portable by sending its calls through one namespace, `star`: a host that offers its
functions there need not offer them as bare names. `starCallee` says where a callee goes, and
`Program.toStar` rewrites every call of a program. Nothing but callees changes, and a second
rewriting changes nothing (`starCallee_idempotent`).
-/

namespace ChartScript

namespace Syntax

/-- The names that the star namespace offers. -/
def starNames : List String := ["plot", "ta", "request", "input", "math", "color", "strategy"]

/-- Names of indicators that may be called without their namespace. -/
def shorthands : List String :=
  ["sma", "ema", "rsi", "wma", "ma", "stdev", "sum", "avg", "max", "min"]

/-- Whether a text starts with another. -/
def startsWith (text start : String) : Bool := start.toList.isPrefixOf text.toList

/-- Where a callee goes. -/
def starCallee (callee : String) : String :=
  if callee = "plot" || startsWith callee "input" || startsWith callee "ta."
    || startsWith callee "request." then "star." ++ callee
  else if startsWith callee "star." then callee
  else if shorthands.contains callee then "star.ta." ++ callee
  else callee

/-- A text that starts with `star.` starts with none of the other beginnings. -/
theorem starCallee_star (rest : String) : starCallee ("star." ++ rest) = "star." ++ rest := by
  have ne : "star." ++ rest ≠ "plot" := fun h => by
    have := congrArg (fun s => s.toList.head?) h
    simp at this
  simp [starCallee, startsWith, List.isPrefixOf, ne]

/-- A second rewriting of a callee changes nothing. -/
theorem starCallee_idempotent (callee : String) :
    starCallee (starCallee callee) = starCallee callee := by
  by_cases moved : callee = "plot" || startsWith callee "input" || startsWith callee "ta."
      || startsWith callee "request."
  · rw [show starCallee callee = "star." ++ callee by simp only [starCallee, if_pos moved]]
    exact starCallee_star callee
  · by_cases there : startsWith callee "star." = true
    · have : starCallee callee = callee := by
        simp only [starCallee, if_neg moved, if_pos there]
      rw [this, this]
    · by_cases short : shorthands.contains callee = true
      · have : starCallee callee = "star." ++ ("ta." ++ callee) := by
          simp only [starCallee, if_neg moved, if_neg there, if_pos short]
          rw [← String.append_assoc]
          rfl
        rw [this]
        exact starCallee_star _
      · have : starCallee callee = callee := by
          simp only [starCallee, if_neg moved, if_neg there, if_neg short]
        rw [this, this]

/-- Why a program cannot be rewritten. -/
inductive TooDeep where
  /-- An expression is nested too deeply. -/
  | tooDeep
deriving DecidableEq

/-- The message about an expression that is nested too deeply to be rewritten. -/
def TooDeep.message (_ : TooDeep) : String := "Expression nested too deeply to transform"

end Syntax

open Syntax

mutual

/-- An expression with its calls sent through the star namespace. -/
def Node.toStar : Node → Node
  | .number value => .number value
  | .string value => .string value
  | .identifier name marker => .identifier name marker
  | .array items => .array (Node.allToStar items)
  | .index target position => .index target.toStar position.toStar
  | .unary op operand => .unary op operand.toStar
  | .binary op left right => .binary op left.toStar right.toStar
  | .call callee args => .call (starCallee callee) (Node.allToStar args)

/-- Several expressions with their calls sent through the star namespace. -/
def Node.allToStar : List Node → List Node
  | [] => []
  | node :: nodes => node.toStar :: Node.allToStar nodes

end

@[simp] theorem Node.allToStar_eq_map (nodes : List Node) :
    Node.allToStar nodes = nodes.map Node.toStar := by
  induction nodes with
  | nil => simp [Node.allToStar]
  | cons node nodes ih => simp [Node.allToStar, ih]

/-- Going down to rewrite an expression: the items of a list and the arguments of a call are gone through
in a call of their own. -/
def Node.Descent.rewriting : Node.Descent where
  leaf := 1
  item := 2
  target := 1
  position := 1
  operand := 1
  argument := 2

/-- A statement with its calls sent through the star namespace. -/
def Assignment.toStar (a : Assignment) : Except TooDeep Assignment :=
  if depthLimit < a.expr.depth .rewriting then .error .tooDeep else .ok { a with expr := a.expr.toStar }

/-- A program with its calls sent through the star namespace. -/
def Program.toStar (p : Program) : Except TooDeep Program :=
  return { p with assignments := ← p.assignments.mapM Assignment.toStar }

end ChartScript
