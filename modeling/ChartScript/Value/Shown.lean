import ChartScript.Series.Text
import ChartScript.Value.GridText

/-!
# Values as text

A value is written in two ways. `Value.display` is what a reader sees: a text is just its
characters. `Value.shown` is what stands inside another value: a text is quoted, and the types that
look alike are told apart. Only texts, names, numbers and grids differ in the two.

What has no text of its own, such as a function, is shown by the name of its type. A list of a strategy
that is left in a value is one within itself, and shown as dots.
-/

namespace ChartScript.Value

open Datum (joined)

-- powers are those of the core library, whatever else a module imports
attribute [local instance (high)] instPowNat

/-- A name and its contents in parentheses. -/
def applied (name : String) (parts : List (List Char)) : List Char :=
  name.toList ++ '(' :: joined [',', ' '] parts ++ [')']

/-- A part of a record: its name, an equals sign and what it holds. -/
def part (name : String) (text : List Char) : List Char := name.toList ++ '=' :: text

/-- A text in quotes. -/
def quotedText (s : String) : List Char := Text.quoted s.toList

/-- A float as text. -/
def floatText (x : Float) : List Char := Number.floatText .plain x

/-- Items in parentheses; a comma follows a single one. -/
def tupleText : List (List Char) → List Char
  | [only] => '(' :: only ++ [',', ')']
  | texts => '(' :: joined [',', ' '] texts ++ [')']

/-- A position as text. -/
def positionText (p : Position) : List Char :=
  applied "Position" [part "size" (Number.intText p.size), part "avg_price" (floatText p.average)]

/-- A trade as text. -/
def tradeText (t : Trade) : List Char :=
  applied "Trade" [part "side" (quotedText t.side.name), part "qty" (Number.intText t.qty),
    part "price" (floatText t.price), part "order_id" (quotedText t.orderId),
    part "commission" (floatText t.commission),
    part "pnl" ((t.pnl.map floatText).getD "None".toList)]

/-- An order as text. -/
def orderText (o : Order) : List Char :=
  applied "Order" [part "order_id" (quotedText o.id), part "action" (quotedText o.side.name),
    part "requested_qty" (floatText o.requested), part "filled_qty" (Number.intText o.filled),
    part "price" (floatText o.price), part "slippage" (floatText o.slippage)]

mutual

/-- A value as it stands inside another. -/
def shown : Value → List Char
  | null => "None".toList
  | bool b => if b then "True".toList else "False".toList
  | int n => Number.intText n
  | float x => floatText x
  | double x => Cell.shown (.double x)
  | half x => Cell.shown ⟨.half, x⟩
  | text s => quotedText s
  | unresolved s => applied "Unresolved" [quotedText s]
  | keyword s => applied "Keyword" [quotedText s]
  | unresolvedCall callee args =>
    applied "UnresolvedCall"
      [part "callee" (quotedText callee), part "args" (tupleText (shownAll args))]
  | list items => '[' :: joined [',', ' '] (shownAll items) ++ [']']
  | tuple items => tupleText (shownAll items)
  | dict entries => '\x7b' :: joined [',', ' '] (shownEntries entries) ++ ['\x7d']
  | position p => positionText p
  | trade t => tradeText t
  | order o => orderText o
  | commission percent => applied "Commission" [part "percent" (floatText percent)]
  | series s => s.text
  | grid g => g.shownText
  | live _ => "[...]".toList
  | v => v.typeName.toList

/-- Several values as they stand inside another. -/
def shownAll : List Value → List (List Char)
  | [] => []
  | v :: rest => shown v :: shownAll rest

/-- The entries of a dictionary. -/
def shownEntries : List (String × Value) → List (List Char)
  | [] => []
  | (key, v) :: rest => (quotedText key ++ ':' :: ' ' :: shown v) :: shownEntries rest

end

/-- A value as a reader sees it. -/
def display : Value → List Char
  | text s | unresolved s | keyword s => s.toList
  | double x | half x => floatText x
  | grid g => g.text
  | v => shown v

/-! ### What can be shown -/

/-- Whether an integer has no more digits than are written. -/
def isShowableInt (n : Int) : Bool := n.natAbs < 10 ^ Number.digitLimit

mutual

/-- Whether a value can be shown: it holds no integer of too many digits. -/
def isShowable : Value → Bool
  | int n => isShowableInt n
  | list items | tuple items | unresolvedCall _ items => areShowable items
  | dict entries => areShowableEntries entries
  | _ => true

/-- Whether several values can be shown. -/
def areShowable : List Value → Bool
  | [] => true
  | v :: rest => isShowable v && areShowable rest

/-- Whether the entries of a dictionary can be shown. -/
def areShowableEntries : List (String × Value) → Bool
  | [] => true
  | (_, v) :: rest => isShowable v && areShowableEntries rest

end

/-- A value as a reader sees it, if it can be shown. -/
def displayed (v : Value) : Except Fault (List Char) :=
  if v.isShowable then .ok v.display else .error .badValue

end ChartScript.Value
