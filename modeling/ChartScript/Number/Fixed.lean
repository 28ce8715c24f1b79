import ChartScript.Number.Layout

/-!
# Digits up to a place

How a float is written in a table, where a column of floats shares one number of places behind the
point. Either all of these places are shown (`fixedText`, `exponentialText`), or no more than are
needed to tell the float from others (`briefly`, `brieflyScaled`), which gives the text before and
behind the point separately, so that a column can be aligned at its points.
-/

namespace ChartScript.Number

-- powers are those of the core library, whatever else a module imports
attribute [local instance (high)] instPowNat

/-- The text of a number, after a minus sign if it is negative. -/
def signed (negative : Bool) (text : List Char) : List Char := if negative then '-' :: text else text

/-- What stands before the point of a number, and what behind it. -/
structure Halves where
  /-- What stands before the point, with the sign. -/
  whole : List Char
  /-- What stands behind the point. -/
  fraction : List Char

/-- `n / 10 ^ places` in two halves. -/
def Halves.ofScaled (negative : Bool) (places n : Nat) : Halves :=
  let digits := natText n
  let digits := List.replicate (places + 1 - digits.length) '0' ++ digits
  { whole := signed negative (digits.take (digits.length - places))
    fraction := digits.drop (digits.length - places) }

/-- A number with the point between its halves. -/
def Halves.text (h : Halves) : List Char := h.whole ++ '.' :: h.fraction

/-- A number without the zeros at its end. -/
def Halves.trimmed (h : Halves) : Halves :=
  { h with fraction := (h.fraction.reverse.dropWhile (· == '0')).reverse }

/-- The number `mantissa * 2 ^ exponent` in units of `10 ^ (-places)`, rounded. -/
def inPlaces (places mantissa : Nat) (exponent : Int) : Nat :=
  let (num, den) := scaled mantissa exponent
  divEven (num * 10 ^ places) den

/-- A decimal number with one digit before the point and a number of places behind it, and the power
of ten that belongs to it. -/
def Decimal.inScientific (negative : Bool) (places : Nat) (d : Decimal) : Halves × Int :=
  let digits := natText d.digits
  let missing := places + 1 - digits.length
  (.ofScaled negative places (d.digits * 10 ^ missing), d.exponent + digits.length - 1)

/-- A finite float with a number of places behind the point. -/
def fixedText (places : Nat) (negative : Bool) (mantissa : Nat) (exponent : Int) : List Char :=
  (Halves.ofScaled negative places (inPlaces places mantissa exponent)).text

/-- A finite float with one digit before the point and a number of places behind it. -/
def exponentialText (places : Nat) (negative : Bool) (mantissa : Nat) (exponent : Int) : List Char :=
  let d := if mantissa = 0 then ⟨0, 0⟩ else significant (places + 1) mantissa exponent
  let (halves, power) := d.inScientific negative places
  halves.text ++ exponentText power

/-- A finite float with as few places behind the point as tell it from others, and no more than a
given number. -/
def briefly (p : Precision) (places : Nat) (negative : Bool) (mantissa : Nat) (exponent : Int) :
    Halves :=
  if mantissa = 0 then .ofScaled negative 0 0
  else
    let d := shortest p mantissa exponent
    if -(places : Int) ≤ d.exponent then
      (Halves.ofScaled negative places (d.digits * 10 ^ (d.exponent + places).toNat)).trimmed
    else (Halves.ofScaled negative places (inPlaces places mantissa exponent)).trimmed

/-- A finite float with one digit before the point and as few places behind it as tell it from others,
and no more than a given number. -/
def brieflyScaled (p : Precision) (places : Nat) (negative : Bool) (mantissa : Nat) (exponent : Int) :
    Halves × Int :=
  let d :=
    if mantissa = 0 then ⟨0, 0⟩
    else
      let d := shortest p mantissa exponent
      if (natText d.digits).length ≤ places + 1 then d
      else significant (places + 1) mantissa exponent
  let (halves, power) := d.inScientific negative places
  (halves.trimmed, power)

end ChartScript.Number
