/-!
# What a float stands for

A float is an approximation only until it is looked at: every finite float *is* an integer times a
power of two. This file takes a float apart (`Exact.ofFloat`) and goes the other way by rounding once
(`ofRatio`, `ofDecimal`, `ofInt?`), so that every text format, every rounding and every conversion
to an integer is decided in exact arithmetic on natural numbers.

The one rule for a half is `divEven`: a quotient that lies midway between two integers goes to the
even one.
-/

namespace ChartScript.Number

open Float.Model

-- powers are those of the core library, whatever else a module imports
attribute [local instance (high)] instPowNat

/-- What a float stands for. -/
inductive Exact where
  /-- Not a number. -/
  | notANumber
  /-- One of the two infinities. -/
  | infinite (negative : Bool)
  /-- The number `± mantissa * 2 ^ exponent`; the sign of a zero counts. -/
  | finite (negative : Bool) (mantissa : Nat) (exponent : Int)

/-- Whether a sign is the negative one. -/
def isNegative : UnpackedFloat.Sign → Bool
  | .negative => true
  | .positive => false

/-- Takes a float apart. -/
def Exact.ofFloat (x : Float) : Exact :=
  match x.toModel.unpack with
  | .notANumber => .notANumber
  | .infinity sign => .infinite (isNegative sign)
  | .zero sign => .finite (isNegative sign) 0 0
  | .finite sign mantissa exponent _ => .finite (isNegative sign) mantissa exponent

/-- Whether the float carries a minus sign, which a negative zero does. -/
def signBit (x : Float) : Bool :=
  match Exact.ofFloat x with
  | .notANumber => false
  | .infinite negative => negative
  | .finite negative _ _ => negative

/-! ### Rounding a quotient -/

/-- The integer nearest to `num / den`; a half goes to the even neighbour. -/
def divEven (num den : Nat) : Nat :=
  let quotient := num / den
  let twice := 2 * (num % den)
  if twice < den then quotient
  else if den < twice then quotient + 1
  else quotient + quotient % 2

/-- A whole quotient is not changed by rounding. -/
theorem divEven_mul_right (n : Nat) {den : Nat} (pos : 0 < den) : divEven (n * den) den = n := by
  simp [divEven, Nat.mul_div_cancel _ pos, pos]

/-- `num * 2 ^ exponent`, written as a fraction. -/
def scaled (num : Nat) (exponent : Int) : Nat × Nat :=
  if 0 ≤ exponent then (num * 2 ^ exponent.toNat, 1) else (num, 2 ^ (-exponent).toNat)

/-! ### Floats from exact numbers -/

/-- The float nearest to `± num / den`. -/
def ofRatio (negative : Bool) (num den : Nat) : Float :=
  if num_pos : 0 < num then
    if den_pos : 0 < den then
      let sign : UnpackedFloat.Sign := if negative then .negative else .positive
      .ofModel (pack (UnpackedFloat.div Format.binary64 (.finite sign num 0 num_pos)
        (.finite .positive den 0 den_pos)))
    else 0.0 / 0.0
  else if negative then -0.0 else 0.0

/-- The float nearest to `± digits * 10 ^ exponent`. -/
def ofDecimal (negative : Bool) (digits : Nat) (exponent : Int) : Float :=
  let magnitude : Float :=
    if 0 ≤ exponent then OfScientific.ofScientific digits false exponent.toNat
    else OfScientific.ofScientific digits true (-exponent).toNat
  if negative then -magnitude else magnitude

/-- The float nearest to an integer, unless the integer is too large for a float. -/
def ofInt? (n : Int) : Option Float :=
  let x := Float.ofInt n
  if x.isFinite then some x else none

/-- The quotient of two integers, rounded once; the divisor is positive. -/
def ofQuotient? (num : Int) (den : Nat) : Option Float :=
  let x := ofRatio (num < 0) num.natAbs den
  if x.isFinite then some x else none

/-! ### Halves -/

/-- The float nearest to a float among those of half precision, which have eleven binary digits and
no digit below the place `-24`. What would need a place above the fifteenth is infinite. -/
def toHalf (x : Float) : Float :=
  match Exact.ofFloat x with
  | .finite negative mantissa exponent =>
    let unit := max (mantissa.log2 + exponent - 10) (-24)
    let (num, den) := scaled mantissa (exponent - unit)
    let (num, den) := scaled (divEven num den) unit
    if num < 2 ^ (16 : Nat) * den then ofRatio negative num den
    else if negative then -1.0 / 0.0 else 1.0 / 0.0
  | _ => x

/-! ### Integers from floats -/

/-- The integer part of a finite float: what is behind the point is dropped. -/
def truncate? (x : Float) : Option Int :=
  match Exact.ofFloat x with
  | .finite negative mantissa exponent =>
    let (num, den) := scaled mantissa exponent
    some (if negative then -(num / den : Nat) else (num / den : Nat))
  | _ => none

/-- The integer nearest to a finite float; a half goes to the even neighbour. -/
def roundEven? (x : Float) : Option Int :=
  match Exact.ofFloat x with
  | .finite negative mantissa exponent =>
    let (num, den) := scaled mantissa exponent
    some (if negative then -(divEven num den : Nat) else (divEven num den : Nat))
  | _ => none

/-- The whole float nearest to a float; a half goes to the even neighbour, and the sign, the
infinities and the non-number stay. -/
def roundToWhole (x : Float) : Float :=
  match Exact.ofFloat x with
  | .finite negative mantissa exponent =>
    let (num, den) := scaled mantissa exponent
    ofRatio negative (divEven num den) 1
  | _ => x

/-- Whether a float is an integer. -/
def isWhole (x : Float) : Bool :=
  match Exact.ofFloat x with
  | .finite _ mantissa exponent =>
    let (num, den) := scaled mantissa exponent
    num % den == 0
  | _ => false

/-! ### Rounding at a decimal place -/

/-- An integer rounded at the decimal place `10 ^ (-places)`; a half goes to the even neighbour. An
integer has nothing behind the point, so only a negative number of places changes it. An integer of
fewer binary digits than there are places is less than half of the unit. -/
def roundIntAt (n : Int) (places : Int) : Int :=
  if 0 ≤ places then n
  else if n.natAbs.log2 + 1 < (-places).toNat then 0
  else
    let unit := 10 ^ (-places).toNat
    let magnitude : Nat := divEven n.natAbs unit * unit
    if n < 0 then -(magnitude : Int) else magnitude

/-- A float rounded at the decimal place `10 ^ (-places)`: the exact value is rounded, a half to the
even neighbour, and the result is the float nearest to the decimal number found. Places at which
every float is already exact, or beyond the largest float, need no arithmetic. -/
def roundAt (x : Float) (places : Int) : Float :=
  match Exact.ofFloat x with
  | .finite negative mantissa exponent =>
    if 323 < places then x
    else if places < -308 then (if negative then -0.0 else 0.0)
    else
      let (num, den) := scaled mantissa exponent
      if 0 ≤ places then ofDecimal negative (divEven (num * 10 ^ places.toNat) den) (-places)
      else ofDecimal negative (divEven num (den * 10 ^ (-places).toNat)) (-places)
  | _ => x

/-- The float nearest to a power of ten, or the infinity where it is too large. -/
def powerOfTen (exponent : Nat) : Float :=
  if 308 < exponent then 1.0 / 0.0 else ofDecimal false 1 exponent

/-- A float rounded at a decimal place the fast way: scaled by a power of ten, rounded to a whole
float and scaled back. After every step the float is made to fit its type. -/
def roundAtByScaling (fit : Float → Float) (x : Float) (places : Int) : Float :=
  let unit := fit (powerOfTen places.natAbs)
  if 0 ≤ places then fit (roundToWhole (fit (x * unit)) / unit)
  else fit (roundToWhole (fit (x / unit)) * unit)

end ChartScript.Number
