import ChartScript.Number.Numeral
import ChartScript.Value.Fault

/-!
# Numbers

A number is an integer or a float of some type (`Num`). An operation on two integers gives an
integer; otherwise both sides become floats, and the result has the stronger of their types: a double
is stronger than a half, and a half than a plain float. An integer that is too large for a float
cannot take part.

A half is kept as a float too. What makes it one is that every result is rounded to the few digits
that a half has (`FloatType.fit`); the numbers that go into an operation of halves are rounded
before.

One place of a series or of a grid holds a float with its type (`Cell`).
-/

namespace ChartScript

/-- The types of floats, from the weakest to the strongest. -/
inductive FloatType where
  /-- A plain float. -/
  | plain
  /-- A half. -/
  | half
  /-- A double. -/
  | double
deriving DecidableEq, Inhabited

namespace FloatType

/-- The stronger of two types. -/
def join : FloatType → FloatType → FloatType
  | double, _ | _, double => double
  | half, _ | _, half => half
  | plain, plain => plain

@[simp] theorem join_self (t : FloatType) : t.join t = t := by cases t <;> rfl

/-- The nearest float of a type. -/
def fit : FloatType → Float → Float
  | half, x => Number.toHalf x
  | _, x => x

/-- Applies an operation of floats within a type: what goes in and what comes out is of the type. -/
def within (type : FloatType) (f : Float → Float → Float) (x y : Float) : Float :=
  type.fit (f (type.fit x) (type.fit y))

end FloatType

/-! ### Places -/

/-- What one place of a series or of a grid holds. -/
structure Cell where
  /-- The type. -/
  type : FloatType
  /-- The float. -/
  value : Float
deriving Inhabited

namespace Cell

/-- A plain float as a cell. -/
def plain (x : Float) : Cell := ⟨.plain, x⟩

/-- A double as a cell. -/
def double (x : Float) : Cell := ⟨.double, x⟩

/-- Applies a function to the float, whose type stays. -/
def map (f : Float → Float) (c : Cell) : Cell := { c with value := f c.value }

end Cell

/-! ### Numbers -/

/-- A number. -/
inductive Num where
  /-- An integer; a truth value counts as one. -/
  | int (n : Int)
  /-- A float of some type. -/
  | float (type : FloatType) (x : Float)

namespace Num

/-- What a cell holds. -/
def ofCell (c : Cell) : Num := float c.type c.value

/-- A number as a float. -/
def toFloat : Num → Except Fault Float
  | int n =>
    match Number.ofInt? n with
    | some x => .ok x
    | none => .error .tooLarge
  | float _ x => .ok x

/-- The type of the float that a number becomes in company of floats. -/
def floatType : Num → FloatType
  | int _ => .plain
  | float type _ => type

/-- A number as what one place holds. -/
def toCell (n : Num) : Except Fault Cell := return ⟨n.floatType, ← n.toFloat⟩

@[simp] theorem toCell_ofCell (c : Cell) : (ofCell c).toCell = .ok c := rfl

/-- Combines two numbers, by one function on integers and another on floats. -/
def combine (onInts : Int → Int → Int) (onFloats : Float → Float → Float) (a b : Num) :
    Except Fault Num :=
  match a, b with
  | int m, int n => .ok (int (onInts m n))
  | a, b => do
    let type := a.floatType.join b.floatType
    return float type (type.within onFloats (← a.toFloat) (← b.toFloat))

/-- Integers stay integers. -/
@[simp] theorem combine_int (onInts : Int → Int → Int) (onFloats : Float → Float → Float)
    (m n : Int) : combine onInts onFloats (int m) (int n) = .ok (int (onInts m n)) := rfl

/-- The number with the opposite sign. -/
def negate : Num → Num
  | int n => int (-n)
  | float type x => float type (-x)

/-- The magnitude of a number. -/
def magnitude : Num → Num
  | int n => int n.natAbs
  | float type x => float type x.abs

/-- Whether an integer is less than a float. -/
def intLtFloat (n : Int) (x : Float) : Bool :=
  match Number.Exact.ofFloat x with
  | .notANumber => false
  | .infinite negative => !negative
  | .finite negative mantissa exponent =>
    let (num, den) := Number.scaled mantissa exponent
    decide (n * den < if negative then -(num : Int) else num)

/-- Whether a float is less than an integer. -/
def floatLtInt (x : Float) (n : Int) : Bool :=
  match Number.Exact.ofFloat x with
  | .notANumber => false
  | .infinite negative => negative
  | .finite negative mantissa exponent =>
    let (num, den) := Number.scaled mantissa exponent
    decide ((if negative then -(num : Int) else num) < n * den)

/-- Two numbers made ready for a comparison: beside a double or a half both become floats of the
type. Other numbers stay as they are. -/
def levelled (a b : Num) : Except Fault (Num × Num) :=
  match a.floatType.join b.floatType with
  | .plain => .ok (a, b)
  | type => return (float type (type.fit (← a.toFloat)), float type (type.fit (← b.toFloat)))

@[simp] theorem levelled_int (m n : Int) : levelled (int m) (int n) = .ok (int m, int n) := rfl

/-- Whether a number is less than another; an integer is compared with a float exactly. -/
def lt : Num → Num → Bool
  | int m, int n => decide (m < n)
  | int m, float _ x => intLtFloat m x
  | float _ x, int n => floatLtInt x n
  | float _ x, float _ y => x < y

/-- Whether two numbers are the same. -/
def same : Num → Num → Bool
  | int m, int n => m == n
  | int m, float _ x | float _ x, int m => Datum.sameNumber m x
  | float _ x, float _ y => x == y

end Num

end ChartScript
