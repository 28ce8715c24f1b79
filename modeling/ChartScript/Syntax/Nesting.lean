import ChartScript.Syntax.Token

/-!
# The bound on nesting

Expressions are accepted up to a fixed depth. How deep a row of lexemes goes is counted without
reading it (`nesting`): it is the number of calls that reading by recursive descent has open at an
operand and not yet at the first one. A sign counts for one up to the end of its operand, and a power
up to the end of the powers in a row. A bracket counts for every rank of expressions that is tried
behind it, and for what it opens: a list has a call of its own, the arguments of a call have two, and
options are read in the place of an argument.

The same bound holds for rewriting an expression, for writing one out and for rebuilding one, which go
down into a tree (`ChartScript.Node.depth`).
-/

namespace ChartScript.Syntax

/-- The depth up to which expressions are followed. -/
def depthLimit : Nat := 980

/-- The depths in the expression that is read between two brackets. -/
structure Level where
  /-- The depth at its beginning. -/
  base : Nat
  /-- The depth behind the powers in front of the operand that is read. -/
  power : Nat
  /-- The depth behind its signs, too. -/
  depth : Nat

/-- The beginning of an expression. -/
def Level.starting (depth : Nat) : Level := { base := depth, power := depth, depth }

/-- A place in a row of lexemes. -/
structure Place where
  /-- The depths around the brackets that are open, the innermost first. -/
  outer : List Level
  /-- The depths behind the innermost open bracket. -/
  level : Level
  /-- Whether an operand must come next, so that `+` and `-` are signs, `(` starts no call and `[` no
  subscript. -/
  atOperand : Bool
  /-- The greatest depth met so far. -/
  deepest : Nat

namespace Place

/-- The place before the first lexeme. -/
def start : Place where
  outer := []
  level := .starting 0
  atOperand := true
  deepest := 0

/-- In front of an operand, at the given depths. -/
def before (p : Place) (level : Level) : Place :=
  { p with level, atOperand := true, deepest := max p.deepest level.depth }

/-- Behind an opening bracket that counts for the given depth. -/
def enter (p : Place) (levels : Nat) : Place :=
  { p with outer := p.level :: p.outer }.before (.starting (p.level.depth + levels))

/-- Behind a closing bracket. -/
def leave (p : Place) : Place :=
  match p.outer with
  | [] => { p with atOperand := false }
  | level :: outer => { p with outer, level, atOperand := false }

/-- Behind a sign. -/
def sign (p : Place) : Place := p.before { p.level with depth := p.level.depth + 1 }

/-- Behind a power. -/
def power (p : Place) : Place :=
  p.before { p.level with power := p.level.power + 1, depth := p.level.power + 1 }

/-- Behind a mark between two operands, or between two expressions. -/
def next (p : Place) : Place := p.before (.starting p.level.base)

/-- The place behind a lexeme. -/
def step (p : Place) : Lexeme → Place
  | .mark .leftParen => p.enter (if p.atOperand then 7 else 9)
  | .mark .leftBracket => p.enter (if p.atOperand then 8 else 6)
  | .mark .leftBrace => p.enter 0
  | .mark .rightParen | .mark .rightBracket | .mark .rightBrace => p.leave
  | .mark .plus | .mark .minus => if p.atOperand then p.sign else p.next
  | .mark .power => p.power
  | .mark _ => p.next
  | _ => { p with atOperand := false }

end Place

/-- How deep a row of lexemes is nested. -/
def nesting (lexemes : List Lexeme) : Nat := (lexemes.foldl Place.step Place.start).deepest

end ChartScript.Syntax
