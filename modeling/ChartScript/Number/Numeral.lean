import ChartScript.Number.Layout
import ChartScript.Text.Digit
import ChartScript.Text.Blank

/-!
# Reading numerals

Numbers come into the program as text in two ways. A *literal* of the script language has been cut
out by the lexer and consists of digits and at most one point (`literalInt?`, `literalFloat?`). A
*numeral* is a whole text that a script or a configuration hands over where a number is wanted
(`readInt?`, `readFloat?`): it may have padding around it, a sign, single underscores between digits
and, for a float, an exponent or one of the words for the values without digits.

Digits of every script count, and an integer of more than `digitLimit` digits is refused, in both
directions of the conversion.
-/

namespace ChartScript.Number

open ChartScript.Text (digitValue? isBlank)

/-- An integer is read from text, or written, with at most this many digits. -/
def digitLimit : Nat := 4300

/-- The number that a row of digit values stands for. -/
def ofDigits (digits : List Nat) : Nat := digits.foldl (fun n d => 10 * n + d) 0

@[simp] theorem ofDigits_nil : ofDigits [] = 0 := rfl

/-- One more digit at the end. -/
theorem ofDigits_concat (digits : List Nat) (d : Nat) :
    ofDigits (digits ++ [d]) = 10 * ofDigits digits + d := by
  simp [ofDigits]

/-- The digit values of a text made of decimal digits. -/
def digitValues? (text : List Char) : Option (List Nat) := text.mapM digitValue?

/-- The value of an integer literal. -/
def literalInt? (text : List Char) : Option Nat := do
  let digits ← digitValues? text
  if digits.isEmpty || digitLimit < digits.length then none else some (ofDigits digits)

/-- The value of a float literal: the digits before the point, and those behind it. -/
def literalFloat? (whole fraction : List Char) : Option Float := do
  let digits ← digitValues? (whole ++ fraction)
  if digits.isEmpty then none
  else some (ofDecimal false (ofDigits digits) (-(fraction.length : Int)))

/-- Takes single underscores between digits out of a numeral; any other underscore is an error. -/
def dropUnderscores? (afterDigit : Bool) : List Char → Option (List Char)
  | [] => some []
  | '_' :: c :: rest =>
    if afterDigit && (digitValue? c).isSome then (dropUnderscores? true rest).map (c :: ·) else none
  | ['_'] => none
  | c :: rest => (dropUnderscores? (digitValue? c).isSome rest).map (c :: ·)

/-- Splits a sign off a numeral; the flag says whether it is a minus sign. -/
def splitSign : List Char → Bool × List Char
  | '-' :: rest => (true, rest)
  | '+' :: rest => (false, rest)
  | text => (false, text)

/-- Whether a character may stand around a numeral: a blank, but no information separator. -/
def isPadding (c : Char) : Bool := isBlank c && !(28 ≤ c.toNat && c.toNat ≤ 31)

/-- A numeral without what stands around it. -/
def unpadded (text : List Char) : List Char :=
  ((text.dropWhile isPadding).reverse.dropWhile isPadding).reverse

/-- The integer that a text spells. -/
def readInt? (text : List Char) : Option Int := do
  let (negative, body) := splitSign (unpadded text)
  let digits ← dropUnderscores? false body
  let n ← literalInt? digits
  some (if negative then -(n : Int) else n)

/-- The power of ten in the rest of a numeral, behind its mantissa. -/
def readExponent? : List Char → Option Int
  | [] => some 0
  | 'e' :: rest | 'E' :: rest => do
    let (negative, digits) := splitSign rest
    let values ← digitValues? digits
    if values.isEmpty then none
    else some (if negative then -(ofDigits values : Int) else ofDigits values)
  | _ => none

/-- The mantissa and the exponent of a numeral without sign. -/
def readDecimal? (text : List Char) : Option Decimal := do
  let isDigit := fun c => (digitValue? c).isSome
  let whole := text.takeWhile isDigit
  let (fraction, rest) := match text.dropWhile isDigit with
    | '.' :: more => (more.takeWhile isDigit, more.dropWhile isDigit)
    | rest => ([], rest)
  let digits ← digitValues? (whole ++ fraction)
  if digits.isEmpty then none
  else
    let exponent ← readExponent? rest
    some ⟨ofDigits digits, exponent - fraction.length⟩

/-- The float that a text spells. -/
def readFloat? (text : List Char) : Option Float := do
  let (negative, body) := splitSign (unpadded text)
  let word := String.ofList (body.map Char.toLower)
  if word = "inf" || word = "infinity" then some (if negative then -1.0 / 0.0 else 1.0 / 0.0)
  else if word = "nan" then some (0.0 / 0.0)
  else
    let plain ← dropUnderscores? false body
    let decimal ← readDecimal? plain
    some (ofDecimal negative decimal.digits decimal.exponent)

end ChartScript.Number
