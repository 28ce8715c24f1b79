import ChartScript.Number.Exact

/-!
# Decimal digits of a float

Two questions about a positive number `mantissa * 2 ^ exponent` that a text format asks.

* *Which is the shortest decimal number that reads back as this float?* (`shortest`) The numbers that
  round to the float form an interval. For one digit, two digits and so on, the two neighbours of
  the value on the grid of that many digits are tried, and the first grid with a neighbour inside
  the interval wins; of two hits the nearer is taken.
* *What are its first `n` significant digits?* (`significant`) The value is rounded on the grid of
  `n` digits, a half to the even neighbour.

Everything is exact arithmetic on natural numbers. Which floats there are besides the value, and so
how wide the interval of the first question is, is told by a `Precision`.
-/

namespace ChartScript.Number

-- powers are those of the core library, whatever else a module imports
attribute [local instance (high)] instPowNat

/-- The decimal number `digits * 10 ^ exponent`. -/
structure Decimal where
  /-- The digits, read as one natural number. -/
  digits : Nat
  /-- The power of ten of the last digit. -/
  exponent : Int
deriving Repr, DecidableEq

/-- The fraction `num / den` divided by `10 ^ exponent`, as a fraction. -/
def downscaled (num den : Nat) (exponent : Int) : Nat × Nat :=
  if 0 ≤ exponent then (num, den * 10 ^ exponent.toNat) else (num * 10 ^ (-exponent).toNat, den)

/-- Whether `num / den < 10 ^ exponent`. -/
def belowPower (num den : Nat) (exponent : Int) : Bool :=
  let (num', den') := downscaled num den exponent
  num' < den'

/-- The number of digits that `num / den` has before the point: the least `n` with
`num / den < 10 ^ n`, which is negative for a small fraction. The binary logarithms of the two parts
leave four candidates. -/
def order (num den : Nat) : Int :=
  let binary : Int := (Nat.log2 num : Int) - (Nat.log2 den : Int)
  let guess := ((binary - 1) * 30103).fdiv 100000
  if belowPower num den guess then guess
  else if belowPower num den (guess + 1) then guess + 1
  else if belowPower num den (guess + 2) then guess + 2
  else guess + 3

/-- Takes the zeros at the end of the digits into the exponent. -/
def Decimal.normalize (d : Decimal) : Decimal :=
  if _h : 0 < d.digits ∧ d.digits % 10 = 0 then
    Decimal.normalize { digits := d.digits / 10, exponent := d.exponent + 1 }
  else d
termination_by d.digits
decreasing_by exact Nat.div_lt_self _h.1 (by decide)

/-- The first `count` significant digits of `mantissa * 2 ^ exponent`, rounded. -/
def significant (count : Nat) (mantissa : Nat) (exponent : Int) : Decimal :=
  let (num, den) := scaled mantissa exponent
  let place := order num den - count
  let (num', den') := downscaled num den place
  Decimal.normalize { digits := divEven num' den', exponent := place }

/-- Which floats there are: integers of a number of binary digits times a power of two. -/
structure Precision where
  /-- The number of binary digits after the leading one. -/
  bits : Nat
  /-- The least exponent of the last digit. -/
  least : Int

/-- The floats of double precision. -/
def Precision.double : Precision := ⟨52, -1074⟩

/-- The floats of half precision. -/
def Precision.half : Precision := ⟨10, -24⟩

/-- The mantissa and the exponent of a float of a precision, where those of more digits are given: the
zeros at the end of the mantissa go into the exponent. -/
def Precision.narrowed (p : Precision) (mantissa : Nat) (exponent : Int) : Nat × Int :=
  let last := max p.least (mantissa.log2 + exponent - p.bits)
  (mantissa / 2 ^ (last - exponent).toNat, max last exponent)

/-- The interval of the numbers that round to `mantissa * 2 ^ exponent`, as a lower and an upper
bound in quarters of a unit `2 ^ exponent`. Below a power of two the floats are twice as dense. -/
def quarterBounds (p : Precision) (mantissa : Nat) (exponent : Int) : Nat × Nat :=
  if mantissa = 2 ^ p.bits ∧ exponent ≠ p.least then (4 * mantissa - 1, 4 * mantissa + 2)
  else (4 * mantissa - 2, 4 * mantissa + 2)

/-- Whether `digits * 10 ^ place` rounds to `mantissa * 2 ^ exponent`. The bounds belong to the
interval exactly when the mantissa is even, since a half goes to the even float. -/
def readsBack (p : Precision) (mantissa : Nat) (exponent : Int) (digits : Nat) (place : Int) : Bool :=
  let (low, high) := quarterBounds p mantissa exponent
  -- both sides over the common unit of a quarter of `2 ^ exponent`
  let (num, den) := scaled 1 (exponent - 2)
  let (lowNum, lowDen) := downscaled (low * num) den place
  let (highNum, highDen) := downscaled (high * num) den place
  if mantissa % 2 = 0 then lowNum ≤ digits * lowDen && digits * highDen ≤ highNum
  else lowNum < digits * lowDen && digits * highDen < highNum

/-- The shortest decimal number of `count` digits or more that reads back. Seventeen digits always
suffice, so `fuel` counts down from there. -/
def shortestFrom (p : Precision) (mantissa : Nat) (exponent : Int) (num den : Nat) (order : Int) :
    Nat → Nat → Decimal
  | 0, count => significant count mantissa exponent
  | fuel + 1, count =>
    let place := order - count
    let (num', den') := downscaled num den place
    let below := num' / den'
    let lowFits := readsBack p mantissa exponent below place
    let highFits := readsBack p mantissa exponent (below + 1) place
    if lowFits && highFits then
      { digits := divEven num' den', exponent := place }
    else if lowFits then { digits := below, exponent := place }
    else if highFits then { digits := below + 1, exponent := place }
    else shortestFrom p mantissa exponent num den order fuel (count + 1)

/-- The shortest decimal number that reads back as the float `mantissa * 2 ^ exponent`; among those
the nearest to it. -/
def shortest (p : Precision) (mantissa : Nat) (exponent : Int) : Decimal :=
  let (num, den) := scaled mantissa exponent
  let (mantissa, exponent) := p.narrowed mantissa exponent
  (shortestFrom p mantissa exponent num den (order num den) 17 1).normalize

end ChartScript.Number
