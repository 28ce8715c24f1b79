import ChartScript.Grammar.Tree
import ChartScript.Syntax.Expression
import ChartScript.Text.Blank

/-!
# Reading by the grammar

A source is a row of statements with line breaks between them; there may be any number of line
breaks. An expression must end on the line on which it starts, since a line break fits nowhere
inside it. The grammar of expressions is that of `ChartScript.Syntax.Expression`, but a statement is
either an assignment to a name of one segment, or a call and nothing behind it.

Each node spans the stretch from its first to its last word. Parentheses around an expression do not
belong to its own span but to that of the node around it, which is why the readers give the stretch
taken up (`Piece.outer`) beside the tree.

A source that does not fit is refused at the first word that no source with the same beginning can
have there. At the end of the source there is no word, and the last one is named instead.
-/

namespace ChartScript.Grammar

open ChartScript.Syntax (Mark sumOperator? productOperator?)

/-- Where reading stops: at a place, or at the end of the source. -/
abbrev Stop := Option Position

/-- What is left of the words after a reader that takes at least one. -/
abbrev Shorter (words : List Word) := { rest : List Word // rest.length < words.length }

/-- What is left of the words after a reader that may take none. -/
abbrev NotLonger (words : List Word) := { rest : List Word // rest.length ≤ words.length }

/-- An expression and the stretch it takes up, parentheses included. -/
structure Piece where
  /-- The expression. -/
  tree : Tree
  /-- The stretch. -/
  outer : Span

/-- Reading stops at the first of the words. -/
def stopAt : List Word → Except Stop α
  | [] => .error none
  | word :: _ => .error (some word.span.start)

/-- An operator between two pieces. -/
def Piece.binary (op : String) (left right : Piece) : Piece :=
  let span := left.outer.to right.outer
  ⟨.binary op left.tree right.tree span, span⟩

/-- The text of a name. -/
def Saying.name? : Saying → Option String
  | .name text | .dotted text => some (String.ofList text)
  | _ => none

/-- The name and the equals sign at the start of a named argument, if the words start with one. -/
def namedStart? (words : List Word) : Option (String × Span × Shorter words) :=
  match words with
  | ⟨saying, span⟩ :: ⟨.mark .assign, _⟩ :: rest =>
    saying.name?.map fun name => (name, span, ⟨rest, by simp only [List.length_cons]; omega⟩)
  | _ => none

/-- The name and the colon at the start of an option, or the place where they are missing. -/
def optionStart (words : List Word) : Except Stop (String × Span × Shorter words) :=
  match words with
  | [] => .error none
  | ⟨saying, span⟩ :: rest =>
    match saying.name?, rest with
    | none, _ => .error (some span.start)
    | some name, ⟨.mark .colon, _⟩ :: rest =>
      .ok (name, span, ⟨rest, by simp only [List.length_cons]; omega⟩)
    | some _, rest => stopAt rest

mutual

/-- Reads a sum. -/
def sum (words : List Word) : Except Stop (Piece × Shorter words) := do
  let (left, ⟨rest, h⟩) ← product words
  let (piece, ⟨after, h'⟩) ← sumTail left rest
  return (piece, ⟨after, by omega⟩)
termination_by 8 * words.length + 6

/-- Reads the further terms of a sum. -/
def sumTail (left : Piece) (words : List Word) : Except Stop (Piece × NotLonger words) :=
  match words with
  | ⟨.mark m, span⟩ :: rest =>
    match sumOperator? m with
    | none => .ok (left, ⟨⟨.mark m, span⟩ :: rest, Nat.le_refl _⟩)
    | some op => do
      let (right, ⟨rest', h⟩) ← product rest
      let (piece, ⟨after, h'⟩) ← sumTail (.binary op left right) rest'
      return (piece, ⟨after, Nat.le_succ_of_le (Nat.le_trans h' (Nat.le_of_lt h))⟩)
  | words => .ok (left, ⟨words, Nat.le_refl _⟩)
termination_by 8 * words.length

/-- Reads a product. -/
def product (words : List Word) : Except Stop (Piece × Shorter words) := do
  let (left, ⟨rest, h⟩) ← power words
  let (piece, ⟨after, h'⟩) ← productTail left rest
  return (piece, ⟨after, by omega⟩)
termination_by 8 * words.length + 5

/-- Reads the further factors of a product. -/
def productTail (left : Piece) (words : List Word) : Except Stop (Piece × NotLonger words) :=
  match words with
  | ⟨.mark m, span⟩ :: rest =>
    match productOperator? m with
    | none => .ok (left, ⟨⟨.mark m, span⟩ :: rest, Nat.le_refl _⟩)
    | some op => do
      let (right, ⟨rest', h⟩) ← power rest
      let (piece, ⟨after, h'⟩) ← productTail (.binary op left right) rest'
      return (piece, ⟨after, by simp only [List.length_cons]; omega⟩)
  | words => .ok (left, ⟨words, Nat.le_refl _⟩)
termination_by 8 * words.length

/-- Reads a power. -/
def power (words : List Word) : Except Stop (Piece × Shorter words) := do
  let (base, ⟨rest, h⟩) ← signed words
  match rest, h with
  | ⟨.mark .power, _⟩ :: rest, h => do
    have : rest.length < words.length := by simp only [List.length_cons] at h; omega
    let (exponent, ⟨after, h'⟩) ← power rest
    return (.binary "^" base exponent, ⟨after, by omega⟩)
  | rest, h => return (base, ⟨rest, h⟩)
termination_by 8 * words.length + 4

/-- Reads an expression with signs before it. -/
def signed (words : List Word) : Except Stop (Piece × Shorter words) :=
  match words with
  | ⟨.mark m, span⟩ :: rest =>
    match sumOperator? m with
    | some op => do
      let (operand, ⟨after, h⟩) ← signed rest
      let span := span.to operand.outer
      return (⟨.unary op operand.tree span, span⟩, ⟨after, Nat.lt_succ_of_lt h⟩)
    | none => subscripted (⟨.mark m, span⟩ :: rest)
  | words => subscripted words
termination_by 8 * words.length + 3

/-- Reads a primary expression with subscripts behind it. -/
def subscripted (words : List Word) : Except Stop (Piece × Shorter words) := do
  let (target, ⟨rest, h⟩) ← primary words
  let (piece, ⟨after, h'⟩) ← subscripts target rest
  return (piece, ⟨after, by omega⟩)
termination_by 8 * words.length + 2

/-- Reads the subscripts behind an expression. -/
def subscripts (target : Piece) (words : List Word) : Except Stop (Piece × NotLonger words) :=
  match words with
  | ⟨.mark .leftBracket, _⟩ :: rest => do
    let (position, ⟨rest', h⟩) ← sum rest
    match rest', h with
    | ⟨.mark .rightBracket, closing⟩ :: rest'', h => do
      have : rest''.length < rest.length := by simp only [List.length_cons] at h; omega
      let span := target.outer.to closing
      let (piece, ⟨after, h'⟩) ← subscripts ⟨.index target.tree position.tree span, span⟩ rest''
      return (piece, ⟨after, by simp only [List.length_cons]; omega⟩)
    | rest', _ => stopAt rest'
  | words => .ok (target, ⟨words, Nat.le_refl _⟩)
termination_by 8 * words.length

/-- Reads a literal, a name, a call, a list or an expression in parentheses. -/
def primary (words : List Word) : Except Stop (Piece × Shorter words) :=
  match words with
  | ⟨.number whole fraction, span⟩ :: rest =>
    .ok (⟨.number whole fraction span, span⟩, ⟨rest, by simp⟩)
  | ⟨.string body, span⟩ :: rest => .ok (⟨.string body span, span⟩, ⟨rest, by simp⟩)
  | ⟨.mark .leftParen, opening⟩ :: rest => do
    let (piece, ⟨rest', h⟩) ← sum rest
    match rest', h with
    | ⟨.mark .rightParen, closing⟩ :: after, h =>
      return ({ piece with outer := opening.to closing },
        ⟨after, by simp only [List.length_cons] at h ⊢; omega⟩)
    | rest', _ => stopAt rest'
  | ⟨.mark .leftBracket, opening⟩ :: ⟨.mark .rightBracket, closing⟩ :: rest =>
    .ok (⟨.array [] (opening.to closing), opening.to closing⟩,
      ⟨rest, by simp only [List.length_cons]; omega⟩)
  | ⟨.mark .leftBracket, opening⟩ :: rest => do
    let (items, closing, ⟨after, h⟩) ← listItems rest
    return (⟨.array items (opening.to closing), opening.to closing⟩,
      ⟨after, by simp only [List.length_cons]; omega⟩)
  | ⟨saying, span⟩ :: rest =>
    match saying.name? with
    | none => .error (some span.start)
    | some name =>
      match rest with
      | ⟨.mark .leftParen, _⟩ :: rest => do
        let (args, closing, ⟨after, h⟩) ← callArguments rest
        return (⟨.call name args (span.to closing), span.to closing⟩,
          ⟨after, by simp only [List.length_cons]; omega⟩)
      | rest => .ok (⟨.identifier name span, span⟩, ⟨rest, by simp⟩)
  | [] => .error none
termination_by 8 * words.length + 1

/-- Reads the items of a list that has some, and its closing bracket. -/
def listItems (words : List Word) : Except Stop (List Tree × Span × Shorter words) := do
  let (item, ⟨rest, h⟩) ← sum words
  match rest, h with
  | ⟨.mark .rightBracket, closing⟩ :: after, h =>
    return ([item.tree], closing, ⟨after, by simp only [List.length_cons] at h; omega⟩)
  | ⟨.mark .comma, _⟩ :: rest, h => do
    have : rest.length < words.length := by simp only [List.length_cons] at h; omega
    let (items, closing, ⟨after, h'⟩) ← listItems rest
    return (item.tree :: items, closing, ⟨after, by omega⟩)
  | rest, _ => stopAt rest
termination_by 8 * words.length + 7

/-- Reads the arguments of a call behind its opening parenthesis, and the closing one. -/
def callArguments (words : List Word) : Except Stop (List Tree × Span × Shorter words) :=
  match words with
  | ⟨.mark .rightParen, closing⟩ :: after => .ok ([], closing, ⟨after, by simp⟩)
  | words => arguments words
termination_by 8 * words.length + 8

/-- Reads the arguments of a call that has some, and its closing parenthesis. Options in braces end
the arguments. -/
def arguments (words : List Word) : Except Stop (List Tree × Span × Shorter words) :=
  match words with
  | ⟨.mark .leftBrace, _⟩ :: ⟨.mark .rightBrace, _⟩ :: ⟨.mark .rightParen, closing⟩ :: after =>
    .ok ([], closing, ⟨after, by simp only [List.length_cons]; omega⟩)
  | ⟨.mark .leftBrace, _⟩ :: ⟨.mark .rightBrace, _⟩ :: rest => stopAt rest
  | ⟨.mark .leftBrace, _⟩ :: rest => do
    let (pairs, ⟨rest', h⟩) ← options rest
    match rest', h with
    | ⟨.mark .rightParen, closing⟩ :: after, h =>
      return (pairs, closing, ⟨after, by simp only [List.length_cons] at h ⊢; omega⟩)
    | rest', _ => stopAt rest'
  | words =>
    match namedStart? words with
    | some (name, span, ⟨rest, h⟩) => do
      let (value, ⟨rest', h'⟩) ← sum rest
      let (more, closing, ⟨after, h''⟩) ← moreArguments rest'
      return (.named name value.tree (span.to value.outer) :: more, closing, ⟨after, by omega⟩)
    | none => do
      let (arg, ⟨rest, h⟩) ← sum words
      let (more, closing, ⟨after, h'⟩) ← moreArguments rest
      return (arg.tree :: more, closing, ⟨after, by omega⟩)
termination_by 8 * words.length + 7

/-- Reads what follows an argument: the closing parenthesis, or a comma and further arguments. -/
def moreArguments (words : List Word) : Except Stop (List Tree × Span × Shorter words) :=
  match words with
  | ⟨.mark .rightParen, closing⟩ :: after => .ok ([], closing, ⟨after, by simp⟩)
  | ⟨.mark .comma, _⟩ :: rest => do
    let (args, closing, ⟨after, h⟩) ← arguments rest
    return (args, closing, ⟨after, by simp only [List.length_cons]; omega⟩)
  | words => stopAt words
termination_by 8 * words.length

/-- Reads the entries of options that have some, and their closing brace. -/
def options (words : List Word) : Except Stop (List Tree × Shorter words) := do
  let (name, span, ⟨rest, h⟩) ← optionStart words
  let (value, ⟨rest', h'⟩) ← sum rest
  let entry : Tree := .named name value.tree (span.to value.outer)
  match rest', h' with
  | ⟨.mark .rightBrace, _⟩ :: after, h' =>
    return ([entry], ⟨after, by simp only [List.length_cons] at h'; omega⟩)
  | ⟨.mark .comma, _⟩ :: rest'', h' => do
    have : rest''.length < rest.length := by simp only [List.length_cons] at h'; omega
    let (more, ⟨after, h''⟩) ← options rest''
    return (entry :: more, ⟨after, by omega⟩)
  | rest', _ => stopAt rest'
termination_by 8 * words.length

end

/-! ### Statements -/

/-- Reads a statement. -/
def statement (words : List Word) : Except Stop (Statement × Shorter words) :=
  match words with
  | [] => .error none
  | ⟨.indicator text, _⟩ :: rest =>
    .ok (.indicator (String.ofList (Text.trim text)), ⟨rest, by simp⟩)
  | ⟨.name text, span⟩ :: ⟨.mark .assign, _⟩ :: rest => do
    let (value, ⟨after, h⟩) ← sum rest
    return (.assignment (String.ofList text) value.tree (span.to value.outer),
      ⟨after, by simp only [List.length_cons]; omega⟩)
  | ⟨saying, span⟩ :: rest =>
    match saying.name?, rest with
    | none, _ => .error (some span.start)
    | some name, ⟨.mark .leftParen, _⟩ :: rest => do
      let (args, closing, ⟨after, h⟩) ← callArguments rest
      return (.call name args (span.to closing),
        ⟨after, by simp only [List.length_cons]; omega⟩)
    | some _, rest => stopAt rest

/-- Reads the statements of a source. -/
def statementRow (words : List Word) : Except Stop (List Statement) :=
  match words with
  | [] => .ok []
  | ⟨.newline, _⟩ :: rest => statementRow rest
  | word :: rest => do
    let (first, ⟨rest', h⟩) ← statement (word :: rest)
    match rest', h with
    | [], _ => return [first]
    | ⟨.newline, _⟩ :: rest'', h => do
      have : rest''.length < rest.length := by simp only [List.length_cons] at h; omega
      return first :: (← statementRow rest'')
    | rest', _ => stopAt rest'
termination_by words.length
decreasing_by all_goals (simp only [List.length_cons]; omega)

/-- The stretch from the first to the last of the words. -/
def wholeSpan (words : List Word) : Option Span :=
  match words.head?, words.getLast? with
  | some first, some last => some (first.span.to last.span)
  | _, _ => none

/-- The place that is named where reading stops. -/
def stopPlace (words : List Word) : Stop → Position
  | some place => place
  | none => ((words.getLast?).map fun word => word.span.start).getD ⟨1, 1⟩

/-- Reads a source into a tree with spans. -/
def Script.read (source : String) : Except GrammarError Script :=
  let words := words source.toList
  match statementRow words with
  | .ok statements => .ok { statements, span := wholeSpan words }
  | .error stop => .error (.misplaced (stopPlace words stop))

/-- Reads a source into plain data with spans. -/
def readSpanned (source : String) : Except GrammarError Datum := do
  (← Script.read source).toDatum

end ChartScript.Grammar
