import ChartScript.Value.Basic

/-!
# Numbers among the values

Which values are numbers (`Value.num?`), and which value a number is. The two conversions at the end
turn any value into a float or an integer, as far as it is one or spells one.
-/

namespace ChartScript

/-- The number that a value is. -/
def Value.num? : Value → Option Num
  | .bool b => some (.int (Datum.ofBool b))
  | .int n => some (.int n)
  | .float x => some (.float .plain x)
  | .half x => some (.float .half x)
  | .double x => some (.float .double x)
  | _ => none

/-- A number as a value. -/
def Num.toValue : Num → Value
  | int n => .int n
  | float .plain x => .float x
  | float .half x => .half x
  | float .double x => .double x

/-- What one place holds, as a value. -/
def Cell.toValue (c : Cell) : Value := (Num.ofCell c).toValue

namespace Value

/-- Whether a value is a quantity: a number that is no truth value. -/
def isQuantity : Value → Bool
  | int _ | float _ | half _ | double _ => true
  | _ => false

/-- A value as a float: a number, or a text that spells one. -/
def toFloat : Value → Except Fault Float
  | text s | unresolved s | keyword s =>
    match Number.readFloat? s.toList with
    | some x => .ok x
    | none => .error .badValue
  | v =>
    match v.num? with
    | some n => n.toFloat
    | none => .error .wrongType

/-- The integer part of a float. -/
def floatToInt (x : Float) : Except Fault Int :=
  match Number.truncate? x with
  | some n => .ok n
  | none => .error (if x.isNaN then .badValue else .tooLarge)

/-- A value as an integer: a number without what is behind its point, or a text that spells an
integer. -/
def toInt : Value → Except Fault Int
  | text s | unresolved s | keyword s =>
    match Number.readInt? s.toList with
    | some n => .ok n
    | none => .error .badValue
  | v =>
    match v.num? with
    | some (.int n) => .ok n
    | some (.float _ x) => floatToInt x
    | none => .error .wrongType

end Value

end ChartScript
