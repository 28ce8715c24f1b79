import ChartScript.Number.Fixed
import ChartScript.Value.Grid

/-!
# Grids as text

A grid is written as its rows in brackets, one below the other (`Grid.text`). Inside another value it
stands in parentheses, and what cannot be seen from the cells is told behind them (`Grid.shownText`).

All floats of a grid are written in one way and aligned at their points (`Style`). They have as many
places as tell them from others, up to eight; exponents are used if the floats are very large or
small, or of very different size. A boxed grid writes every cell for itself.

A row that is too long for a line goes on in the next one, and of a grid with very many cells only the
edges are shown.
-/

namespace ChartScript

open Number

/-- A cell as it stands inside another value. -/
def Cell.shown (c : Cell) : List Char :=
  match c.type with
  | .plain => Number.floatText .plain c.value
  | .half => "np.float16(".toList ++ Number.floatText .half c.value ++ [')']
  | .double => "np.float64(".toList ++ Number.floatText .plain c.value ++ [')']

namespace Grid

/-- The greatest number of places behind the point. -/
def textPlaces : Nat := 8

/-- The number of cells up to which all are shown. -/
def cellLimit : Nat := 1000

/-- The number of places at either end of an axis that are shown of a larger grid. -/
def edgePlaces : Nat := 3

/-- The length of a line. -/
def lineWidth : Nat := 75

/-! ### Floats -/

/-- How the floats of a grid are written. -/
structure Style where
  /-- The floats from which they are told apart. -/
  among : Precision
  /-- With exponents, the number of places behind the point. -/
  scaledPlaces : Option Nat
  /-- The width before the point. -/
  left : Nat
  /-- The width behind the point. -/
  right : Nat

/-- A finite float taken apart. -/
def finite? (x : Float) : Option (Bool × Nat × Int) :=
  match Exact.ofFloat x with
  | .finite negative mantissa exponent => some (negative, mantissa, exponent)
  | _ => none

/-- The least and the greatest of positive floats. -/
def bounds? (values : List Float) : Option (Float × Float) :=
  match values with
  | [] => none
  | first :: rest =>
    some (rest.foldl (fun (low, high) x =>
      (if x < low then x else low, if high < x then x else high)) (first, first))

/-- Whether floats are written with exponents. -/
def needExponents (values : List Float) : Bool :=
  match bounds? ((values.map Float.abs).filter fun x => 0.0 < x && x.isFinite) with
  | none => false
  | some (low, high) => 100000000.0 ≤ high || low < 0.0001 || 1000.0 < high / low

/-- The greatest of the lengths of texts. -/
def longest (texts : List (List Char)) : Nat :=
  texts.foldl (fun length text => max length text.length) 0

/-- The width that the floats which are not finite need before the point. -/
def widthOfOthers (values : List Float) (right : Nat) : Nat :=
  if values.all Float.isFinite then 0
  else 3 + (if values.any fun x => x.isInf && x < 0.0 then 1 else 0) - (right + 1)

/-- The style of floats. -/
def Style.ofValues (among : Precision) (values : List Float) : Style :=
  let parts := values.filterMap finite?
  if needExponents values then
    let texts := parts.map fun (negative, m, e) => brieflyScaled among textPlaces negative m e
    let places := longest (texts.map (·.1.fraction))
    let right := places + longest (texts.map fun text => exponentText text.2)
    let left := longest (texts.map (·.1.whole))
    { among, scaledPlaces := some places, left := max left (widthOfOthers values right), right }
  else
    let texts := parts.map fun (negative, m, e) => briefly among textPlaces negative m e
    let right := longest (texts.map (·.fraction))
    let left := longest (texts.map (·.whole))
    { among, scaledPlaces := none, left := max left (widthOfOthers values right), right }

/-- The exponent mark with a number of digits at least. -/
def exponentMark (digits : Nat) (power : Int) : List Char :=
  let text := natText power.natAbs
  'e' :: (if power < 0 then '-' else '+') :: List.replicate (digits - text.length) '0' ++ text

/-- The two halves of a number, each in the width that it has in a style. -/
def Style.aligned (style : Style) (whole behind : List Char) : List Char :=
  List.replicate (style.left - whole.length) ' ' ++ whole ++ '.' :: behind
    ++ List.replicate (style.right - behind.length) ' '

/-- A float in a style. -/
def Style.write (style : Style) (x : Float) : List Char :=
  match finite? x, style.scaledPlaces with
  | none, _ =>
    let text := Number.floatText .plain x
    List.replicate (style.left + style.right + 1 - text.length) ' ' ++ text
  | some (negative, m, e), none =>
    let halves := briefly style.among textPlaces negative m e
    style.aligned halves.whole halves.fraction
  | some (negative, m, e), some places =>
    let (halves, power) := brieflyScaled style.among textPlaces negative m e
    let zeros := List.replicate (places - halves.fraction.length) '0'
    style.aligned halves.whole
      (halves.fraction ++ zeros ++ exponentMark (style.right - places - 2) power)

/-! ### Rows -/

/-- Some items, and dots for those between the first and the last of them if there are more than can
be shown. -/
def edges (cut : Bool) (items : List α) : List (Option α) :=
  if cut && 2 * edgePlaces < items.length then
    (items.take edgePlaces).map some ++ none :: (items.drop (items.length - edgePlaces)).map some
  else items.map some

/-- The cells of a grid that are shown if only its edges are. -/
def edgeCells : List Nat → List α → List α
  | [], cells => cells
  | length :: shape, cells =>
    (edges true (pieces (volume shape) length cells)).flatMap fun
      | some piece => edgeCells shape piece
      | none => []

/-- Text of which the last line can still grow. -/
structure Lines where
  /-- The lines before the last one. -/
  done : List Char
  /-- The last line. -/
  line : List Char

/-- Text without the blanks at its end. -/
def withoutBlanks (text : List Char) : List Char := (text.reverse.dropWhile (· == ' ')).reverse

/-- Adds a word to the last line, or to a new line if it does not fit. -/
def Lines.add (indent : List Char) (width : Nat) (l : Lines) (word : List Char) : Lines :=
  if indent.length < l.line.length && width < l.line.length + word.length then
    { done := l.done ++ withoutBlanks l.line ++ ['\n'], line := indent ++ word }
  else { l with line := l.line ++ word }

/-- The dots that stand for what is not shown. -/
def dots : List Char := ['.', '.', '.']

/-- Words one behind the other, with a separator between them. -/
def flow (separator indent : List Char) (width : Nat) (l : Lines) : List (List Char) → Lines
  | [] => l
  | [word] => l.add indent width word
  | word :: rest =>
    let next := l.add indent width word
    flow separator indent width { next with line := next.line ++ separator } rest

/-- The text of a grid of words, where a row goes on below its first word. -/
def layOut (separator : List Char) (cut : Bool) :
    List Char → Nat → List Nat → List (List Char) → List Char
  | _, _, [], words => words.headD []
  | indent, width, [_], words =>
    let shown := (edges cut words).map fun word => word.getD dots
    let l := flow separator indent (width - 1) { done := [], line := indent } shown
    '[' :: (l.done ++ l.line).drop indent.length ++ [']']
  | indent, width, length :: shape, words =>
    let rows := (edges cut (pieces (volume shape) length words)).map fun row =>
      indent ++ (row.map (layOut separator cut (' ' :: indent) (width - 1) shape)).getD dots
    let between := withoutBlanks separator ++ List.replicate shape.length '\n'
    '[' :: (Datum.joined between rows).drop indent.length ++ [']']

/-- The cells as words. -/
def words (g : Grid) (cut : Bool) : List (List Char) :=
  let shown := if cut then edgeCells g.shape g.cells else g.cells
  let styled (among : Precision) :=
    let style := Style.ofValues among (shown.map (·.value))
    g.cells.map fun cell => style.write cell.value
  match g.type with
  | .half => styled .half
  | .double => styled .double
  | .boxed => g.cells.map Cell.shown

/-- The rows of a grid in brackets. -/
def rowsText (g : Grid) (separator indent : List Char) (width : Nat) : List Char :=
  if g.cells.isEmpty then ['[', ']']
  else
    let cut := cellLimit < g.cells.length
    layOut separator cut indent width g.shape (g.words cut)

/-- A grid as text. -/
def text (g : Grid) : List Char := g.rowsText [' '] [' '] lineWidth

/-- The lengths of the axes as text. -/
def shapeText : List Nat → List Char
  | [length] => '(' :: natText length ++ [',', ')']
  | shape => '(' :: Datum.joined [',', ' '] (shape.map natText) ++ [')']

/-- What cannot be seen from the cells of a grid. -/
def hidden (g : Grid) : List (List Char) :=
  let shape :=
    if g.cells.isEmpty && g.shape != [0] || cellLimit < g.cells.length then
      ["shape=".toList ++ shapeText g.shape]
    else []
  let type := match g.type with
    | .half => ["dtype=float16".toList]
    | .boxed => ["dtype=object".toList]
    | .double => if g.cells.isEmpty then ["dtype=float64".toList] else []
  shape ++ type

/-- A grid as it stands inside another value. -/
def shownText (g : Grid) : List Char :=
  let opening := "array(".toList
  let indent := opening.map fun _ => ' '
  let rows := opening ++ g.rowsText [',', ' '] (' ' :: indent) (lineWidth - 1)
  match g.hidden with
  | [] => rows ++ [')']
  | parts =>
    let rows := rows ++ [',']
    let rest := Datum.joined [',', ' '] parts ++ [')']
    let last := (rows.reverse.takeWhile (· != '\n')).length
    rows ++ (if lineWidth < last + rest.length + 1 then '\n' :: indent else [' ']) ++ rest

end Grid

end ChartScript
