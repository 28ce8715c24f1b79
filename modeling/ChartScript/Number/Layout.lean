import ChartScript.Number.Digits

/-!
# Number formats

How a float is written. The digits come from `ChartScript.Number.Digits`; what a format decides
beyond them is a `Layout`: where positional notation ends, whether one digit in exponent notation gets a
point, and how the values without digits are spelt. A whole number in positional notation always keeps
its point. Four formats stand here.

* `Layout.plain` writes a float in reports and in exchanged data: the shortest digits, positional
  for a decimal exponent from -4 to 15.
* `Layout.json` is the same with the spellings of JSON.
* `Layout.half` is the same for floats of half precision, which need fewer digits.
* `Layout.positional` writes a float literal of the script language, which has no exponents.
-/

namespace ChartScript.Number

/-- The decisions of a number format. -/
structure Layout where
  /-- The floats among which a text has to be told apart from others. -/
  among : Precision
  /-- A decimal exponent from -4 to below this bound is written positionally; without a bound every
  exponent is. -/
  positionalBelow : Option Int
  /-- Whether a one-digit number in exponent notation has a point and a zero before the exponent. -/
  pointBeforeExponent : Bool
  /-- The text of the value that is not a number. -/
  notANumber : String
  /-- The text of the infinity, which a minus sign may precede. -/
  infinity : String

namespace Layout

/-- The format of reports and exchanged data. -/
def plain : Layout where
  among := .double
  positionalBelow := some 16
  pointBeforeExponent := false
  notANumber := "nan"
  infinity := "inf"

/-- The plain format with the spellings of JSON. -/
def json : Layout := { plain with notANumber := "NaN", infinity := "Infinity" }

/-- The plain format for floats of half precision. -/
def half : Layout := { plain with among := .half }

/-- The format of a float literal of the script language. -/
def positional : Layout := { plain with positionalBelow := none }

end Layout

/-- The decimal digits of a natural number. -/
def natText (n : Nat) : List Char := Nat.toDigits 10 n

/-- The decimal digits of an integer, after a minus sign if it is negative. -/
def intText (n : Int) : List Char :=
  if n < 0 then '-' :: natText n.natAbs else natText n.natAbs

/-- The digits with a point after the first `whole` of them; zeros fill the places that the digits
do not reach. -/
def placePoint (digits : List Char) (whole : Int) : List Char :=
  if whole ≤ 0 then
    '0' :: '.' :: List.replicate (-whole).toNat '0' ++ digits
  else
    let count := whole.toNat
    if digits.length ≤ count then
      digits ++ List.replicate (count - digits.length) '0' ++ ['.', '0']
    else digits.take count ++ '.' :: digits.drop count

/-- The exponent mark: a sign and at least two digits. -/
def exponentText (exponent : Int) : List Char :=
  let digits := natText exponent.natAbs
  'e' :: (if exponent < 0 then '-' else '+')
    :: (if digits.length < 2 then '0' :: digits else digits)

/-- The digits in exponent notation. -/
def scientific (layout : Layout) (digits : List Char) (exponent : Int) : List Char :=
  match digits with
  | [] => []
  | [d] => d :: (if layout.pointBeforeExponent then ['.', '0'] else []) ++ exponentText exponent
  | d :: more => d :: '.' :: more ++ exponentText exponent

/-- A decimal number in a format. -/
def Decimal.text (layout : Layout) (d : Decimal) : List Char :=
  let digits := natText d.digits
  if d.digits = 0 then ['0', '.', '0']
  else
    let whole := d.exponent + digits.length
    match layout.positionalBelow with
    | none => placePoint digits whole
    | some bound =>
      if -4 < whole && whole ≤ bound then placePoint digits whole
      else scientific layout digits (whole - 1)

/-- A float in a format. -/
def floatText (layout : Layout) (x : Float) : List Char :=
  match Exact.ofFloat x with
  | .notANumber => layout.notANumber.toList
  | .infinite negative =>
    if negative then '-' :: layout.infinity.toList else layout.infinity.toList
  | .finite negative mantissa exponent =>
    let decimal : Decimal :=
      if mantissa = 0 then ⟨0, 0⟩ else shortest layout.among mantissa exponent
    let text := decimal.text layout
    if negative then '-' :: text else text

end ChartScript.Number
