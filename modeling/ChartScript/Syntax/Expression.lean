import ChartScript.Syntax.Node
import ChartScript.Syntax.Token

/-!
# Reading expressions

The expression that a list of lexemes spells, by descent through the levels of binding: sums,
products, powers, signs, subscripts and primary expressions. Sums and products lean to the left,
powers to the right, and a sign binds more strongly than a power.

Every reader gives the expression and what is left of the lexemes. The type of the rest says that it
is shorter (`Shorter`), or at least not longer (`NotLonger`), which is what makes the descent end; no
bound on the nesting is involved. The bound that does exist is a property of the lexemes alone
(`ChartScript.Syntax.nesting`).
-/

namespace ChartScript.Syntax

/-- What is left of the lexemes after a reader that takes at least one. -/
abbrev Shorter (lexemes : List Lexeme) := { rest : List Lexeme // rest.length < lexemes.length }

/-- What is left of the lexemes after a reader that may take none. -/
abbrev NotLonger (lexemes : List Lexeme) := { rest : List Lexeme // rest.length ≤ lexemes.length }

/-- The operator of a mark at the level of sums. -/
def sumOperator? : Mark → Option String
  | .plus => some "+"
  | .minus => some "-"
  | _ => none

/-- The operator of a mark at the level of products. -/
def productOperator? : Mark → Option String
  | .times => some "*"
  | .divide => some "/"
  | _ => none

/-- A number literal as a node. -/
def intNode (n : Nat) : Node := .number (.int n)

mutual

/-- Reads a sum. -/
def sum? (lexemes : List Lexeme) : Option (Node × Shorter lexemes) := do
  let (left, ⟨rest, h⟩) ← product? lexemes
  let (node, ⟨after, h'⟩) ← sumTail? left rest
  some (node, ⟨after, by omega⟩)
termination_by 8 * lexemes.length + 6

/-- Reads the further terms of a sum. -/
def sumTail? (left : Node) (lexemes : List Lexeme) : Option (Node × NotLonger lexemes) :=
  match lexemes with
  | .mark m :: rest =>
    match sumOperator? m with
    | none => some (left, ⟨.mark m :: rest, Nat.le_refl _⟩)
    | some op => do
      let (right, ⟨rest', h⟩) ← product? rest
      let (node, ⟨after, h'⟩) ← sumTail? (.binary op left right) rest'
      some (node, ⟨after, by simp only [List.length_cons]; omega⟩)
  | lexemes => some (left, ⟨lexemes, Nat.le_refl _⟩)
termination_by 8 * lexemes.length

/-- Reads a product. -/
def product? (lexemes : List Lexeme) : Option (Node × Shorter lexemes) := do
  let (left, ⟨rest, h⟩) ← power? lexemes
  let (node, ⟨after, h'⟩) ← productTail? left rest
  some (node, ⟨after, by omega⟩)
termination_by 8 * lexemes.length + 5

/-- Reads the further factors of a product. -/
def productTail? (left : Node) (lexemes : List Lexeme) : Option (Node × NotLonger lexemes) :=
  match lexemes with
  | .mark m :: rest =>
    match productOperator? m with
    | none => some (left, ⟨.mark m :: rest, Nat.le_refl _⟩)
    | some op => do
      let (right, ⟨rest', h⟩) ← power? rest
      let (node, ⟨after, h'⟩) ← productTail? (.binary op left right) rest'
      some (node, ⟨after, by simp only [List.length_cons]; omega⟩)
  | lexemes => some (left, ⟨lexemes, Nat.le_refl _⟩)
termination_by 8 * lexemes.length

/-- Reads a power. -/
def power? (lexemes : List Lexeme) : Option (Node × Shorter lexemes) := do
  let (base, ⟨rest, h⟩) ← signed? lexemes
  match rest, h with
  | .mark .power :: rest, h => do
    have : rest.length < lexemes.length := by simp only [List.length_cons] at h; omega
    let (exponent, ⟨after, h'⟩) ← power? rest
    some (.binary "^" base exponent, ⟨after, by omega⟩)
  | rest, h => some (base, ⟨rest, h⟩)
termination_by 8 * lexemes.length + 4

/-- Reads an expression with signs before it. -/
def signed? (lexemes : List Lexeme) : Option (Node × Shorter lexemes) :=
  match lexemes with
  | .mark m :: rest =>
    match sumOperator? m with
    | some op => do
      let (operand, ⟨after, h⟩) ← signed? rest
      some (.unary op operand, ⟨after, Nat.lt_succ_of_lt h⟩)
    | none => subscripted? (.mark m :: rest)
  | lexemes => subscripted? lexemes
termination_by 8 * lexemes.length + 3

/-- Reads a primary expression with subscripts behind it. -/
def subscripted? (lexemes : List Lexeme) : Option (Node × Shorter lexemes) := do
  let (target, ⟨rest, h⟩) ← primary? lexemes
  let (node, ⟨after, h'⟩) ← subscripts? target rest
  some (node, ⟨after, by omega⟩)
termination_by 8 * lexemes.length + 2

/-- Reads the subscripts behind an expression. -/
def subscripts? (target : Node) (lexemes : List Lexeme) : Option (Node × NotLonger lexemes) :=
  match lexemes with
  | .mark .leftBracket :: rest => do
    let (position, ⟨rest', h⟩) ← sum? rest
    match rest', h with
    | .mark .rightBracket :: rest'', h => do
      have : rest''.length < rest.length := by simp only [List.length_cons] at h; omega
      let (node, ⟨after, h'⟩) ← subscripts? (.index target position) rest''
      some (node, ⟨after, by simp only [List.length_cons]; omega⟩)
    | _, _ => none
  | lexemes => some (target, ⟨lexemes, Nat.le_refl _⟩)
termination_by 8 * lexemes.length

/-- Reads a literal, a name, a call, a list or an expression in parentheses. -/
def primary? (lexemes : List Lexeme) : Option (Node × Shorter lexemes) :=
  match lexemes with
  | .int n :: rest => some (intNode n, ⟨rest, by simp⟩)
  | .float x :: rest => some (.number (.float x), ⟨rest, by simp⟩)
  | .string s :: rest => some (.string (.text s), ⟨rest, by simp⟩)
  | .mark .leftParen :: rest => do
    let (node, ⟨rest', h⟩) ← sum? rest
    match rest', h with
    | .mark .rightParen :: after, h =>
      some (node, ⟨after, by simp only [List.length_cons] at h ⊢; omega⟩)
    | _, _ => none
  | .mark .leftBracket :: .mark .rightBracket :: rest =>
    some (.array [], ⟨rest, by simp only [List.length_cons]; omega⟩)
  | .mark .leftBracket :: rest => do
    let (items, ⟨after, h⟩) ← items? rest
    some (.array items, ⟨after, by simp only [List.length_cons]; omega⟩)
  | .name callee :: .mark .leftParen :: .mark .rightParen :: rest =>
    some (.call callee [], ⟨rest, by simp only [List.length_cons]; omega⟩)
  | .name callee :: .mark .leftParen :: rest => do
    let (args, ⟨after, h⟩) ← arguments? rest
    some (.call callee args, ⟨after, by simp only [List.length_cons]; omega⟩)
  | .name s :: rest => some (.identifier s false, ⟨rest, by simp⟩)
  | _ => none
termination_by 8 * lexemes.length + 1

/-- Reads the items of a list that has some, and its closing bracket. -/
def items? (lexemes : List Lexeme) : Option (List Node × Shorter lexemes) := do
  let (item, ⟨rest, h⟩) ← sum? lexemes
  match rest, h with
  | .mark .rightBracket :: after, h =>
    some ([item], ⟨after, by simp only [List.length_cons] at h; omega⟩)
  | .mark .comma :: rest, h => do
    have : rest.length < lexemes.length := by simp only [List.length_cons] at h; omega
    let (items, ⟨after, h'⟩) ← items? rest
    some (item :: items, ⟨after, by omega⟩)
  | _, _ => none
termination_by 8 * lexemes.length + 7

/-- Reads the arguments of a call that has some, and its closing parenthesis. Options in braces end
the arguments. -/
def arguments? (lexemes : List Lexeme) : Option (List Node × Shorter lexemes) :=
  match lexemes with
  | .mark .leftBrace :: .mark .rightBrace :: .mark .rightParen :: after =>
    some ([], ⟨after, by simp only [List.length_cons]; omega⟩)
  | .mark .leftBrace :: rest => do
    let (pairs, ⟨rest', h⟩) ← options? rest
    match rest', h with
    | .mark .rightParen :: after, h =>
      some (pairs, ⟨after, by simp only [List.length_cons] at h ⊢; omega⟩)
    | _, _ => none
  | .name key :: .mark .assign :: rest => do
    let (value, ⟨rest', h⟩) ← sum? rest
    let (more, ⟨after, h'⟩) ← moreArguments? rest'
    some (Node.pair key value ++ more, ⟨after, by simp only [List.length_cons]; omega⟩)
  | lexemes => do
    let (arg, ⟨rest, h⟩) ← sum? lexemes
    let (more, ⟨after, h'⟩) ← moreArguments? rest
    some (arg :: more, ⟨after, by omega⟩)
termination_by 8 * lexemes.length + 7

/-- Reads what follows an argument: the closing parenthesis, or a comma and further arguments. -/
def moreArguments? (lexemes : List Lexeme) : Option (List Node × Shorter lexemes) :=
  match lexemes with
  | .mark .rightParen :: after => some ([], ⟨after, by simp⟩)
  | .mark .comma :: rest => do
    let (args, ⟨after, h⟩) ← arguments? rest
    some (args, ⟨after, by simp only [List.length_cons]; omega⟩)
  | _ => none
termination_by 8 * lexemes.length

/-- Reads the entries of options that have some, and their closing brace. -/
def options? (lexemes : List Lexeme) : Option (List Node × Shorter lexemes) :=
  match lexemes with
  | .name key :: .mark .colon :: rest => do
    let (value, ⟨rest', h⟩) ← sum? rest
    match rest', h with
    | .mark .rightBrace :: after, h =>
      some (Node.pair key value,
        ⟨after, by simp only [List.length_cons] at h ⊢; omega⟩)
    | .mark .comma :: rest'', h => do
      have : rest''.length < rest.length := by simp only [List.length_cons] at h; omega
      let (more, ⟨after, h'⟩) ← options? rest''
      some (Node.pair key value ++ more, ⟨after, by simp only [List.length_cons]; omega⟩)
    | _, _ => none
  | _ => none
termination_by 8 * lexemes.length

end

/-- The expression that the lexemes spell as a whole. -/
def expression? (lexemes : List Lexeme) : Option Node :=
  match sum? lexemes with
  | some (node, ⟨[], _⟩) => some node
  | _ => none

end ChartScript.Syntax
