import ChartScript.Number.Fixed
import ChartScript.Series.Basic

/-!
# Series as text

A series is written as a table of two columns, the labels and the values, with a line below it that
tells the name and what the values are. Of a long series only the first and the last rows are shown,
with dots between them (`Series.text`).

Doubles share one way of writing: with up to six places behind the point, as many as one of them
needs, or with exponents if some are tiny, or large and long. A boxed series writes every float for
itself.
-/

namespace ChartScript.Series

open Number

/-! ### Columns -/

/-- The number of places behind the point. -/
def textPlaces : Nat := 6

/-- The greatest width of a text in a column. -/
def columnLimit : Nat := 50

/-- The width of the widest of several texts. -/
def widest (texts : List (List Char)) : Nat := texts.foldl (fun width text => max width text.length) 0

/-- A text with blanks behind it. -/
def alignedLeft (width : Nat) (text : List Char) : List Char :=
  text ++ List.replicate (width - text.length) ' '

/-- A text with blanks in front of it. -/
def alignedRight (width : Nat) (text : List Char) : List Char :=
  List.replicate (width - text.length) ' ' ++ text

/-- A text with blanks on both sides. Of an odd number of them the side behind has one more, unless
the width is odd. -/
def centred (width : Nat) (text : List Char) : List Char :=
  let blanks := width - text.length
  let before := blanks / 2 + blanks % 2 * (width % 2)
  List.replicate before ' ' ++ text ++ List.replicate (blanks - before) ' '

/-- Texts of one width, with the longest ones cut. -/
def column (texts : List (List Char)) : List (List Char) :=
  let width := min columnLimit (widest texts)
  texts.map fun text =>
    if width < text.length then text.take (width - 3) ++ ['.', '.', '.']
    else alignedRight width text

/-! ### Floats -/

/-- A float in a column, where a blank stands for a missing minus sign. -/
def floatText (form : Bool → Nat → Int → List Char) (x : Float) : List Char :=
  match Exact.ofFloat x with
  | .notANumber => "NaN".toList
  | .infinite negative => if negative then "-inf".toList else " inf".toList
  | .finite negative mantissa exponent =>
    let text := form negative mantissa exponent
    if negative then text else ' ' :: text

/-- The number of zeros at the end of a text. -/
def zerosAtEnd (text : List Char) : Nat := (text.reverse.takeWhile (· == '0')).length

/-- A text without some of its last characters, but not without the zero behind a point. -/
def shortened (count : Nat) (text : List Char) : List Char :=
  let text := text.take (text.length - count)
  if text.getLast? = some '.' then text ++ ['0'] else text

/-- Floats with as many places behind the point as one of them needs. -/
def fixedColumn (values : List Float) : List (List Char) :=
  let texts := values.map fun x => (x.isFinite, floatText (fixedText textPlaces) x)
  let zeros := texts.filterMap fun (finite, text) => if finite then some (zerosAtEnd text) else none
  let common := (zeros.min?).getD 0
  texts.map fun (finite, text) => if finite then shortened common text else text

/-- Whether some floats do not fit a column without exponents. -/
def needExponents (values : List Float) (texts : List (List Char)) : Bool :=
  let long := 2 * textPlaces < widest texts
  (values.any fun x => 0.0 < x.abs && x.abs < 0.000001)
    || (long && values.any fun x => 1000000.0 < x.abs)

/-- Doubles in a column. -/
def doubleColumn (values : List Float) : List (List Char) :=
  let fixed := fixedColumn values
  if needExponents values fixed then values.map (floatText (exponentialText textPlaces)) else fixed

/-- A float in a column where every one is written for itself. -/
def boxedText (x : Float) : List Char :=
  let text := floatText (fixedText textPlaces) x
  if x.isFinite then shortened (zerosAtEnd text) text
  else if x.isNaN then ' ' :: text
  else text

/-! ### Tables -/

/-- The number of rows up to which all are shown. -/
def rowLimit : Nat := 60

/-- The number of first and of last rows that are shown of a longer series. -/
def edgeRows : Nat := 5

/-- What stands below the rows. -/
def footer (s : Series) : List Char :=
  let name := (s.name.map fun name => "Name: ".toList ++ name.toList ++ ", ".toList).getD []
  let length :=
    if rowLimit < s.length then "Length: ".toList ++ natText s.length ++ ", ".toList else []
  name ++ length ++ "dtype: ".toList ++ (if s.boxed then "object" else "float64").toList

/-- The lines of the rows that are shown. -/
def lines (s : Series) : List (List Char) :=
  let cut := rowLimit < s.length
  let shown := if cut then s.entries.take edgeRows ++ s.entries.drop (s.length - edgeRows)
    else s.entries
  let values := shown.map (·.2.value)
  let texts := column (if s.boxed then values.map boxedText else doubleColumn values)
  let labels := shown.map fun entry => intText entry.1
  let labelWidth := widest labels + 3
  let rows := List.zipWith (fun label text => alignedLeft labelWidth label ++ text) labels texts
  if cut then
    let width := widest texts
    let dots := List.replicate (if 3 < width then 3 else 2) '.'
    rows.take edgeRows ++ (alignedLeft labelWidth [] ++ centred width dots) :: rows.drop edgeRows
  else rows

/-- A series as text. -/
def text (s : Series) : List Char :=
  if s.entries.isEmpty then "Series([], ".toList ++ s.footer ++ [')']
  else (s.lines.flatMap fun line => line ++ ['\n']) ++ s.footer

end ChartScript.Series
