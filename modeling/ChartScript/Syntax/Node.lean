import ChartScript.Data.Datum

/-!
# Syntax trees

A program of the script language is a list of indicator lines and a list of assignments, each of an
expression. Expressions come in eight kinds (`Node`).

A named argument `title = "x"` has no kind of its own. It stands in the argument list of a call as a
*marker*, an identifier that is flagged as a keyword, directly followed by the value
(`Node.splitArgs` takes the two apart again). The statement `plot(close)` is an assignment to the
reserved name `_call`, which no program can write.
-/

namespace ChartScript

/-- An expression. -/
inductive Node where
  /-- A number literal. A tree that was read from plain data may hold any datum here. -/
  | number (value : Datum)
  /-- A string literal, with the same freedom. -/
  | string (value : Datum)
  /-- A name, of one or more segments with points between them. The flag tells a marker, which is
  the name half of a named argument. -/
  | identifier (name : String) (marker : Bool)
  /-- A list of expressions. -/
  | array (items : List Node)
  /-- A subscript. -/
  | index (target position : Node)
  /-- A sign before an expression. -/
  | unary (op : String) (operand : Node)
  /-- An operator between two expressions. -/
  | binary (op : String) (left right : Node)
  /-- A call of a named function; named arguments are marker and value in a row. -/
  | call (callee : String) (args : List Node)
deriving Inhabited

/-- The reserved target of a statement that is only a call. -/
def callTarget : String := "_call"

/-- A statement: a name and the expression it is bound to. -/
structure Assignment where
  /-- The name that is bound, or the reserved target of a bare call. -/
  target : String
  /-- The expression. -/
  expr : Node
deriving Inhabited

/-- Whether the statement only calls and binds nothing. -/
def Assignment.isCall (a : Assignment) : Bool := a.target == callTarget

/-- A program: its indicator lines and its statements. -/
structure Program where
  /-- The indicator lines, as they are written. -/
  indicators : List String
  /-- The statements, in order. -/
  assignments : List Assignment
deriving Inhabited

namespace Node

/-! ### Arguments -/

/-- Takes an argument list apart into positional arguments and pairs of a name and a value. A marker
at the very end has no value and stays positional. -/
def splitArgs : List Node → List Node × List (String × Node)
  | [] => ([], [])
  | .identifier name true :: value :: rest =>
    let (positional, named) := splitArgs rest
    (positional, (name, value) :: named)
  | arg :: rest =>
    let (positional, named) := splitArgs rest
    (arg :: positional, named)

@[simp] theorem splitArgs_nil : splitArgs [] = ([], []) := rfl

@[simp] theorem splitArgs_pair (name : String) (value : Node) (rest : List Node) :
    splitArgs (.identifier name true :: value :: rest) =
      ((splitArgs rest).1, (name, value) :: (splitArgs rest).2) := rfl

/-- The marker and the value of a named argument, as they stand in an argument list. -/
def pair (name : String) (value : Node) : List Node := [.identifier name true, value]

/-! ### Measures -/

mutual

/-- The number of nodes of an expression, markers included. -/
def size : Node → Nat
  | .number _ | .string _ | .identifier _ _ => 1
  | .array items => sizeAll items + 1
  | .index target position => size target + size position + 1
  | .unary _ operand => size operand + 1
  | .binary _ left right => size left + size right + 1
  | .call _ args => sizeAll args + 1

/-- The number of nodes of several expressions. -/
def sizeAll : List Node → Nat
  | [] => 0
  | node :: nodes => size node + sizeAll nodes

end

/-- What it costs a recursion over expressions to go down: the number of calls that are open in a part
of an expression and not yet in the whole, by the place of the part. A list and a call are paid for
even if they are empty. -/
structure Descent where
  /-- At a literal or a name. -/
  leaf : Nat
  /-- From a list to an item. -/
  item : Nat
  /-- From a subscript to what it is taken of. -/
  target : Nat
  /-- From a subscript to its position. -/
  position : Nat
  /-- From a sign or an operator to an operand. -/
  operand : Nat
  /-- From a call to an argument. -/
  argument : Nat
  /-- A list and a call cost no less than a leaf, even if they are empty. -/
  leaf_le : leaf ≤ item ∧ leaf ≤ argument := by decide

mutual

/-- How deep a recursion goes down into an expression. -/
def depth (d : Descent) : Node → Nat
  | .number _ | .string _ | .identifier _ _ => d.leaf
  | .array items => depthAll d items + d.item
  | .index target position => max (depth d target + d.target) (depth d position + d.position)
  | .unary _ operand => depth d operand + d.operand
  | .binary _ left right => max (depth d left) (depth d right) + d.operand
  | .call _ args => depthAll d args + d.argument

/-- How deep it goes down into several expressions. -/
def depthAll (d : Descent) : List Node → Nat
  | [] => 0
  | node :: nodes => max (depth d node) (depthAll d nodes)

end

/-- A recursion goes down to a leaf at least. -/
theorem leaf_le_depth (d : Descent) (node : Node) : d.leaf ≤ node.depth d := by
  match node with
  | .number _ | .string _ | .identifier _ _ => simp only [depth, Nat.le_refl]
  | .array _ => exact Nat.le_trans d.leaf_le.1 (Nat.le_add_left _ _)
  | .call _ _ => exact Nat.le_trans d.leaf_le.2 (Nat.le_add_left _ _)
  | .index target _ =>
    have := leaf_le_depth d target
    rw [depth]
    omega
  | .unary _ operand =>
    have := leaf_le_depth d operand
    rw [depth]
    omega
  | .binary _ left _ =>
    have := leaf_le_depth d left
    rw [depth]
    omega

/-! ### Likeness -/

mutual

/-- Whether two expressions have the same shape, the same names and like literals. Markers are told
from other identifiers only on demand. -/
def alike (markers : Bool) : Node → Node → Bool
  | .number a, .number b | .string a, .string b => a.alike b
  | .identifier a isMarker, .identifier b isMarker' =>
    a == b && (!markers || isMarker == isMarker')
  | .array xs, .array ys => alikeAll markers xs ys
  | .index t i, .index t' i' => alike markers t t' && alike markers i i'
  | .unary op e, .unary op' e' => op == op' && alike markers e e'
  | .binary op l r, .binary op' l' r' =>
    op == op' && alike markers l l' && alike markers r r'
  | .call f xs, .call g ys => f == g && alikeAll markers xs ys
  | _, _ => false

/-- Whether two lists of expressions are alike one by one. -/
def alikeAll (markers : Bool) : List Node → List Node → Bool
  | [], [] => true
  | x :: xs, y :: ys => alike markers x y && alikeAll markers xs ys
  | _, _ => false

end

end Node

/-- Whether two statements have the same target and like expressions. -/
def Assignment.alike (markers : Bool) (a b : Assignment) : Bool :=
  a.target == b.target && a.expr.alike markers b.expr

/-- Whether two lists of statements are alike one by one. -/
def Assignment.alikeAll (markers : Bool) : List Assignment → List Assignment → Bool
  | [], [] => true
  | a :: as, b :: bs => a.alike markers b && alikeAll markers as bs
  | _, _ => false

/-- Whether two programs have the same indicator lines and like statements. -/
def Program.alike (markers : Bool) (p q : Program) : Bool :=
  p.indicators == q.indicators && Assignment.alikeAll markers p.assignments q.assignments

end ChartScript
