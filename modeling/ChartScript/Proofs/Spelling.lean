import ChartScript.Syntax.Expression
import Mathlib

/-!
# The grammar of expressions

Which rows of lexemes spell which expressions, said by rules and without a reader. A row is read as a
`ChartScript.Syntax.Form`: one of the six levels of binding, or one of the lists that stand between
brackets. `ChartScript.Syntax.Spells` is the grammar itself; it relates a row to the nodes that it
spells, which are one node at the levels of binding and any number of nodes for a list.

The grammar leans where the language does: a sum and a product have their own form on the left of the
operator and the next level on the right, a power the other way round.

Three facts about spelled rows are what the readers need to know. They have ends
(`ChartScript.Syntax.Spells.ends`): a row is not empty, never starts with `*` and never stops with
`/`. Inside them words do not touch (`ChartScript.Syntax.Spells.apart`). And the number literals of
the nodes are those of the row (`ChartScript.Syntax.Spells.integers_eq`).
-/

namespace ChartScript.Syntax

/-- What a row of lexemes is read as. -/
inductive Form where
  /-- Terms with `+` and `-` between them. -/
  | sum
  /-- Factors with `*` and `/` between them. -/
  | product
  /-- A base and perhaps an exponent. -/
  | power
  /-- An operand with signs before it. -/
  | signed
  /-- A primary expression with subscripts behind it. -/
  | subscripted
  /-- A literal, a name, a call, a list or an expression in parentheses. -/
  | primary
  /-- The items of a list that has some. -/
  | items
  /-- One argument of a call, with a name or without. -/
  | argument
  /-- The arguments of a call that has some. -/
  | arguments
  /-- Options in braces. -/
  | options
  /-- The entries of options that have some. -/
  | entries
deriving DecidableEq

/-- **The grammar of expressions**: `Spells form row nodes` says that the row, read as the form, spells
the nodes. -/
inductive Spells : Form → List Lexeme → List Node → Prop
  /-- A sum may have a single term. -/
  | term {u : List Lexeme} {t : Node} : Spells .product u [t] → Spells .sum u [t]
  /-- A sum leans to the left. -/
  | sum {u v : List Lexeme} {m : Mark} {op : String} {l r : Node} : sumOperator? m = some op →
      Spells .sum u [l] → Spells .product v [r] → Spells .sum (u ++ .mark m :: v) [.binary op l r]
  /-- A product may have a single factor. -/
  | factor {u : List Lexeme} {t : Node} : Spells .power u [t] → Spells .product u [t]
  /-- A product leans to the left. -/
  | product {u v : List Lexeme} {m : Mark} {op : String} {l r : Node} :
      productOperator? m = some op → Spells .product u [l] → Spells .power v [r] →
      Spells .product (u ++ .mark m :: v) [.binary op l r]
  /-- A power may have no exponent. -/
  | base {u : List Lexeme} {t : Node} : Spells .signed u [t] → Spells .power u [t]
  /-- A power leans to the right. -/
  | power {u v : List Lexeme} {l r : Node} : Spells .signed u [l] → Spells .power v [r] →
      Spells .power (u ++ .mark .power :: v) [.binary "^" l r]
  /-- There may be no sign. -/
  | unsigned {u : List Lexeme} {t : Node} : Spells .subscripted u [t] → Spells .signed u [t]
  /-- A sign stands before an operand that may have signs itself. -/
  | signed {u : List Lexeme} {m : Mark} {op : String} {t : Node} : sumOperator? m = some op →
      Spells .signed u [t] → Spells .signed (.mark m :: u) [.unary op t]
  /-- There may be no subscript. -/
  | plain {u : List Lexeme} {t : Node} : Spells .primary u [t] → Spells .subscripted u [t]
  /-- A subscript stands behind an expression that may have subscripts itself. -/
  | subscript {u v : List Lexeme} {t i : Node} : Spells .subscripted u [t] → Spells .sum v [i] →
      Spells .subscripted (u ++ .mark .leftBracket :: (v ++ [.mark .rightBracket])) [.index t i]
  /-- An integer literal. -/
  | int (n : Nat) : Spells .primary [.int n] [intNode n]
  /-- A float literal. -/
  | float (x : Float) : Spells .primary [.float x] [.number (.float x)]
  /-- A string literal. -/
  | string (s : String) : Spells .primary [.string s] [.string (.text s)]
  /-- A name. -/
  | name (s : String) : Spells .primary [.name s] [.identifier s false]
  /-- Parentheses leave no trace. -/
  | parentheses {u : List Lexeme} {t : Node} : Spells .sum u [t] →
      Spells .primary (.mark .leftParen :: (u ++ [.mark .rightParen])) [t]
  /-- A list may be empty. -/
  | noItems : Spells .primary [.mark .leftBracket, .mark .rightBracket] [.array []]
  /-- A list of items. -/
  | array {u : List Lexeme} {ts : List Node} : Spells .items u ts →
      Spells .primary (.mark .leftBracket :: (u ++ [.mark .rightBracket])) [.array ts]
  /-- A call may have no arguments. -/
  | noArguments (f : String) :
      Spells .primary [.name f, .mark .leftParen, .mark .rightParen] [.call f []]
  /-- A call with arguments. -/
  | call (f : String) {u : List Lexeme} {ts : List Node} : Spells .arguments u ts →
      Spells .primary (.name f :: .mark .leftParen :: (u ++ [.mark .rightParen])) [.call f ts]
  /-- The last item of a list. -/
  | lastItem {u : List Lexeme} {t : Node} : Spells .sum u [t] → Spells .items u [t]
  /-- An item and further ones. -/
  | item {u v : List Lexeme} {t : Node} {ts : List Node} : Spells .sum u [t] → Spells .items v ts →
      Spells .items (u ++ .mark .comma :: v) (t :: ts)
  /-- An argument without a name. -/
  | positional {u : List Lexeme} {t : Node} : Spells .sum u [t] → Spells .argument u [t]
  /-- A named argument is a marker and the value. -/
  | named (k : String) {u : List Lexeme} {t : Node} : Spells .sum u [t] →
      Spells .argument (.name k :: .mark .assign :: u) (Node.pair k t)
  /-- The last argument of a call. -/
  | lastArgument {u : List Lexeme} {ts : List Node} : Spells .argument u ts → Spells .arguments u ts
  /-- An argument and further ones. -/
  | argument {u v : List Lexeme} {ts ts' : List Node} : Spells .argument u ts →
      Spells .arguments v ts' → Spells .arguments (u ++ .mark .comma :: v) (ts ++ ts')
  /-- Options stand at the end of the arguments. -/
  | lastOptions {u : List Lexeme} {ts : List Node} : Spells .options u ts → Spells .arguments u ts
  /-- Options may be empty. -/
  | noEntries : Spells .options [.mark .leftBrace, .mark .rightBrace] []
  /-- Options with entries. -/
  | options {u : List Lexeme} {ts : List Node} : Spells .entries u ts →
      Spells .options (.mark .leftBrace :: (u ++ [.mark .rightBrace])) ts
  /-- The last entry of options is a marker and the value, as a named argument is. -/
  | lastEntry (k : String) {u : List Lexeme} {t : Node} : Spells .sum u [t] →
      Spells .entries (.name k :: .mark .colon :: u) (Node.pair k t)
  /-- An entry and further ones. -/
  | entry (k : String) {u v : List Lexeme} {t : Node} {ts : List Node} : Spells .sum u [t] →
      Spells .entries v ts →
      Spells .entries (.name k :: .mark .colon :: (u ++ .mark .comma :: v)) (Node.pair k t ++ ts)

/-! ### Ends -/

/-- A spelled row is not empty, does not start with `*` and does not stop with `/`. -/
def HasEnds (row : List Lexeme) : Prop :=
  row ≠ [] ∧ row.head? ≠ some (.mark .times) ∧ row.getLast? ≠ some (.mark .divide)

theorem HasEnds.append {u v : List Lexeme} (hu : HasEnds u) (hv : HasEnds v) (m : Mark) :
    HasEnds (u ++ .mark m :: v) := by
  refine ⟨by simp, ?_, ?_⟩
  · obtain ⟨a, u, rfl⟩ := List.exists_cons_of_ne_nil hu.1
    exact hu.2.1
  · obtain ⟨a, v, rfl⟩ := List.exists_cons_of_ne_nil hv.1
    rw [List.getLast?_append_cons, List.getLast?_cons_cons]
    exact hv.2.2

theorem HasEnds.cons {u : List Lexeme} (hu : HasEnds u) {a : Lexeme} (ha : a ≠ .mark .times) :
    HasEnds (a :: u) := by
  refine ⟨by simp, by simpa using ha, ?_⟩
  obtain ⟨b, u, rfl⟩ := List.exists_cons_of_ne_nil hu.1
  exact hu.2.2

theorem HasEnds.concat {u : List Lexeme} (hu : HasEnds u) {a : Lexeme} (ha : a ≠ .mark .divide) :
    HasEnds (u ++ [a]) := by
  refine ⟨by simp, ?_, by simpa using ha⟩
  obtain ⟨b, u, rfl⟩ := List.exists_cons_of_ne_nil hu.1
  exact hu.2.1

/-- The operator of a sum is no `*`. -/
theorem sumOperator?_ne_times {m : Mark} {op : String} (h : sumOperator? m = some op) :
    Lexeme.mark m ≠ .mark .times := by
  rintro ⟨⟩
  cases h

/-- Every spelled row has ends. -/
theorem Spells.ends {form : Form} {row : List Lexeme} {nodes : List Node}
    (h : Spells form row nodes) : HasEnds row := by
  induction h with
  | term _ ih | factor _ ih | base _ ih | unsigned _ ih | plain _ ih => exact ih
  | lastItem _ ih | positional _ ih | lastArgument _ ih | lastOptions _ ih => exact ih
  | sum _ _ _ ihl ihr | product _ _ _ ihl ihr => exact ihl.append ihr _
  | power _ _ ihl ihr | item _ _ ihl ihr | argument _ _ ihl ihr => exact ihl.append ihr _
  | signed hm _ ih => exact ih.cons (sumOperator?_ne_times hm)
  | subscript _ _ iht ihi => exact iht.append (ihi.concat (by simp)) _
  | int | float | string | name => simp [HasEnds]
  | noItems | noArguments | noEntries => simp [HasEnds]
  | parentheses _ ih | array _ ih | options _ ih => exact (ih.concat (by simp)).cons (by simp)
  | call f _ ih => exact ((ih.concat (by simp)).cons (by simp)).cons (by simp)
  | named k _ ih | lastEntry k _ ih => exact (ih.cons (by simp)).cons (by simp)
  | entry k _ _ ihv ihr => exact ((ihv.append ihr _).cons (by simp)).cons (by simp)

/-! ### Words do not touch -/

/-- Whether a lexeme is a word: a number or a name. -/
def Lexeme.isWord : Lexeme → Bool
  | .int _ | .float _ | .name _ => true
  | .string _ | .mark _ => false

/-- What may stand next to each other: never two words, and never `/` before `*`. -/
def Apart (a b : Lexeme) : Prop :=
  ¬(a = .mark .divide ∧ b = .mark .times) ∧ ¬(a.isWord ∧ b.isWord)

theorem apart_mark {a : Lexeme} (h : a ≠ .mark .divide) (m : Mark) : Apart a (.mark m) :=
  ⟨fun hm => h hm.1, by simp [Lexeme.isWord]⟩

theorem mark_apart {b : Lexeme} (h : b ≠ .mark .times) (m : Mark) : Apart (.mark m) b :=
  ⟨fun hm => h hm.2, by simp [Lexeme.isWord]⟩

/-- A mark may stand between two rows that have ends. -/
theorem isChain_append_mark {u v : List Lexeme} (hu : u.IsChain Apart) (eu : HasEnds u)
    (hv : v.IsChain Apart) (ev : HasEnds v) (m : Mark) : (u ++ Lexeme.mark m :: v).IsChain Apart := by
  refine List.isChain_append.2 ⟨hu, List.isChain_cons.2 ⟨fun b hb => ?_, hv⟩, fun a ha b hb => ?_⟩
  · refine mark_apart (fun he => ev.2.1 ?_) m
    rw [← he]
    exact hb
  · obtain rfl : Lexeme.mark m = b := by simpa using hb
    refine apart_mark (fun he => eu.2.2 ?_) m
    rw [← he]
    exact ha

/-- A mark may stand before a row that has ends. -/
theorem isChain_mark_cons {u : List Lexeme} (hu : u.IsChain Apart) (eu : HasEnds u) (m : Mark) :
    (Lexeme.mark m :: u).IsChain Apart := by
  refine List.isChain_cons.2 ⟨fun b hb => mark_apart (fun he => eu.2.1 ?_) m, hu⟩
  rw [← he]
  exact hb

/-- A mark may stand behind a row that has ends. -/
theorem isChain_concat_mark {u : List Lexeme} (hu : u.IsChain Apart) (eu : HasEnds u) (m : Mark) :
    (u ++ [Lexeme.mark m]).IsChain Apart := by
  refine List.isChain_append.2 ⟨hu, by simp, fun a ha b hb => ?_⟩
  obtain rfl : Lexeme.mark m = b := by simpa using hb
  refine apart_mark (fun he => eu.2.2 ?_) m
  rw [← he]
  exact ha

/-- A name may stand before a mark. -/
theorem isChain_name_cons {u : List Lexeme} {m : Mark} (hu : (Lexeme.mark m :: u).IsChain Apart)
    (s : String) : (Lexeme.name s :: .mark m :: u).IsChain Apart :=
  List.isChain_cons_cons.2 ⟨apart_mark (by simp) m, hu⟩

/-- **Words do not touch** in a spelled row, and no `/` stands before a `*`. -/
theorem Spells.apart {form : Form} {row : List Lexeme} {nodes : List Node}
    (h : Spells form row nodes) : row.IsChain Apart := by
  induction h with
  | term _ ih | factor _ ih | base _ ih | unsigned _ ih | plain _ ih => exact ih
  | lastItem _ ih | positional _ ih | lastArgument _ ih | lastOptions _ ih => exact ih
  | sum _ hl hr ihl ihr | product _ hl hr ihl ihr =>
    exact isChain_append_mark ihl hl.ends ihr hr.ends _
  | power hl hr ihl ihr | item hl hr ihl ihr | argument hl hr ihl ihr =>
    exact isChain_append_mark ihl hl.ends ihr hr.ends _
  | signed _ h ih => exact isChain_mark_cons ih h.ends _
  | subscript ht hi iht ihi =>
    exact isChain_append_mark iht ht.ends (isChain_concat_mark ihi hi.ends _)
      (hi.ends.concat (by simp)) _
  | int | float | string | name => exact List.isChain_singleton _
  | noItems | noEntries => exact List.isChain_pair.2 (apart_mark (by simp) _)
  | noArguments f =>
    exact isChain_name_cons (List.isChain_pair.2 (apart_mark (by simp) _)) f
  | parentheses h ih | array h ih | options h ih =>
    exact isChain_mark_cons (isChain_concat_mark ih h.ends _) (h.ends.concat (by simp)) _
  | call f h ih =>
    exact isChain_name_cons
      (isChain_mark_cons (isChain_concat_mark ih h.ends _) (h.ends.concat (by simp)) _) f
  | named k h ih | lastEntry k h ih => exact isChain_name_cons (isChain_mark_cons ih h.ends _) k
  | entry k hv hr ihv ihr =>
    exact isChain_name_cons
      (isChain_mark_cons (isChain_append_mark ihv hv.ends ihr hr.ends _) (hv.ends.append hr.ends _)
        _) k

/-! ### Integer literals -/

/-- The integers among lexemes. -/
def integersOf (row : List Lexeme) : List Int :=
  row.flatMap fun
    | .int n => [(n : Int)]
    | _ => []

@[simp] theorem integersOf_nil : integersOf [] = [] := rfl

@[simp] theorem integersOf_int (n : Nat) (row : List Lexeme) :
    integersOf (.int n :: row) = (n : Int) :: integersOf row := rfl

@[simp] theorem integersOf_float (x : Float) (row : List Lexeme) :
    integersOf (.float x :: row) = integersOf row := rfl

@[simp] theorem integersOf_string (s : String) (row : List Lexeme) :
    integersOf (.string s :: row) = integersOf row := rfl

@[simp] theorem integersOf_name (s : String) (row : List Lexeme) :
    integersOf (.name s :: row) = integersOf row := rfl

@[simp] theorem integersOf_mark (m : Mark) (row : List Lexeme) :
    integersOf (.mark m :: row) = integersOf row := rfl

@[simp] theorem integersOf_append (u v : List Lexeme) :
    integersOf (u ++ v) = integersOf u ++ integersOf v := by
  simp [integersOf]

end ChartScript.Syntax

namespace ChartScript.Node

mutual

/-- The integer literals of an expression, from left to right. -/
def integers : Node → List Int
  | .number (.int n) => [n]
  | .number _ | .string _ | .identifier _ _ => []
  | .array items => allIntegers items
  | .index target position => integers target ++ integers position
  | .unary _ operand => integers operand
  | .binary _ left right => integers left ++ integers right
  | .call _ args => allIntegers args

/-- The integer literals of several expressions. -/
def allIntegers : List Node → List Int
  | [] => []
  | node :: nodes => integers node ++ allIntegers nodes

end

@[simp] theorem allIntegers_nil : allIntegers [] = [] := by simp [allIntegers]

@[simp] theorem allIntegers_cons (node : Node) (nodes : List Node) :
    allIntegers (node :: nodes) = integers node ++ allIntegers nodes := by
  simp [allIntegers]

@[simp] theorem allIntegers_append (xs ys : List Node) :
    allIntegers (xs ++ ys) = allIntegers xs ++ allIntegers ys := by
  induction xs with
  | nil => simp
  | cons x xs ih => simp [ih]

@[simp] theorem allIntegers_pair (key : String) (value : Node) :
    allIntegers (pair key value) = integers value := by
  simp [pair, integers]

end ChartScript.Node

namespace ChartScript.Syntax

/-- **The integer literals** of the nodes are those of the row, in order. -/
theorem Spells.integers_eq {form : Form} {row : List Lexeme} {nodes : List Node}
    (h : Spells form row nodes) : Node.allIntegers nodes = integersOf row := by
  induction h <;> simp_all [Node.integers, intNode]

/-! ### Calls -/

/-- What a row spells on its own it spells as a sum. -/
theorem Spells.sum_of_primary {row : List Lexeme} {n : Node} (h : Spells .primary row [n]) :
    Spells .sum row [n] :=
  .term (.factor (.base (.unsigned (.plain h))))

/-- **A sum that is a call** stands in parentheses or is a call on its own. -/
theorem Spells.call_cases {row : List Lexeme} {f : String} {args : List Node}
    (h : Spells .sum row [.call f args]) :
    row.head? = some (.mark .leftParen) ∨
      ∃ u, row = .name f :: .mark .leftParen :: u ∧ Spells .primary row [.call f args] := by
  cases h with
  | term h =>
    cases h with
    | factor h =>
      cases h with
      | base h =>
        cases h with
        | unsigned h =>
          cases h with
          | plain h =>
            cases h with
            | parentheses h => exact .inl rfl
            | noArguments => exact .inr ⟨_, rfl, .noArguments f⟩
            | call _ h => exact .inr ⟨_, rfl, .call f h⟩

end ChartScript.Syntax
