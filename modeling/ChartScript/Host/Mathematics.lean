import ChartScript.Host.Compare
import ChartScript.Host.Signature
import ChartScript.Host.Source
import ChartScript.Value.Operator

/-!
# Mathematics as functions of a script

The functions of the `math` namespace. They take the values of the language as they are: a mean or an
absolute value of series is a series, the greatest of several texts is the last of them in order, and
rounding gives an integer unless it is asked for places behind the point.

A plain float is rounded at a place by its exact value; a double and the values of a series are
scaled, rounded and scaled back.
-/

namespace ChartScript

-- powers are those of the core library, whatever else a module imports
attribute [local instance (high)] instPowNat

namespace MathFunction

/-- The sum of several values, starting from zero. -/
def sum (values : List Value) : Except Fault Value :=
  values.foldlM (fun total v => Operator.add.onValues total v) (.int 0)

/-- A sum divided by a number of values that is not zero. -/
def share (total : Value) (count : Nat) : Except Fault Value :=
  match total with
  | .int n =>
    match Number.ofQuotient? n count with
    | some x => .ok (.float x)
    | none => .error .tooLarge
  | .float x => .ok (.float (x / Float.ofNat count))
  | total => Operator.div.onValues total (.int count)

/-- The mean of several values; of none it is missing. -/
def mean (values : List Value) : Except Fault Value := do
  if values.isEmpty then return .float missing
  else share (← sum values) values.length

/-- The square root of the cells of a block, as floats of one type. Values of any kind have none. -/
def rootOfBlock (b : Block) : Except Fault Grid :=
  match b.type with
  | .text => .error .wrongType
  | .object =>
    if b.cells.isEmpty then .ok { type := .boxed, shape := b.shape, cells := [] }
    else .error .wrongType
  | .truth | .half => roots .half .half
  | _ => roots .double .double
where
  /-- The roots as floats of a type. -/
  roots (type : FloatType) (gridType : GridType) : Except Fault Grid := do
    let cells := (← b.floats).map fun x => ⟨type, type.fit (Float.sqrt x)⟩
    return { type := gridType, shape := b.shape, cells }

/-- The square root of a value. -/
def root : Value → Except Fault Value
  | .int n => do return .double (Float.sqrt (← (Num.int n).toFloat))
  | .series s =>
    if s.boxed && s.length != 0 then .error .wrongType else .ok (.series (s.map Float.sqrt))
  | v => do return (← rootOfBlock (← Block.ofValue v)).toValue

/-- The integer nearest to a float. -/
def nearest (x : Float) : Except Fault Value :=
  match Number.roundEven? x with
  | some n => .ok (.int n)
  | none => .error (if x.isNaN then .badValue else .tooLarge)

/-- A value rounded to integers. -/
def roundWhole : Value → Except Fault Value
  | .series s => if s.boxed then .error .wrongType else .ok (.series (s.map Number.roundToWhole))
  | v =>
    match v.num? with
    | some (.int n) => .ok (.int n)
    | some (.float _ x) => nearest x
    | none => .error .wrongType

/-- A plain float rounded at a decimal place. -/
def roundPlain (x : Float) (places : Int) : Except Fault Value :=
  let result := Number.roundAt x places
  if x.isFinite && !result.isFinite then .error .tooLarge else .ok (.float result)

/-- A value rounded at a decimal place. -/
def roundAt (v : Value) (places : Int) : Except Fault Value :=
  match v with
  | .bool b => .ok (.int (Number.roundIntAt (Datum.ofBool b) places))
  | .int n => .ok (.int (Number.roundIntAt n places))
  | .float x => roundPlain x places
  | .double x => scaled (.double (Number.roundAtByScaling id x places))
  | .half x => scaled (.half (Number.roundAtByScaling Number.toHalf x places))
  | .series s =>
    if s.boxed then .error .wrongType
    else scaled (.series (s.map (Number.roundAtByScaling id · places)))
  | _ => .error .wrongType
where
  /-- A rounding by scaling, for which the number of places must not be too large. -/
  scaled (rounded : Value) : Except Fault Value :=
    if -(2 ^ (31 : Nat)) ≤ places ∧ places < 2 ^ (31 : Nat) then .ok rounded else .error .tooLarge

/-- A value rounded as the precision says. -/
def rounded (v precision : Value) : Except Fault Value := do
  if ← precision.truth then roundAt v (← precision.toInt) else roundWhole v

/-- What a function with fixed parameters takes. -/
def signature : MathFunction → Signature
  | abs | sqrt => .member ["value"]
  | pow => .member ["base", "exponent"]
  | round => { Signature.member ["value"] with
      params := [("value", none), ("precision", some (.int 0))] }
  | avg | max | min => .anything

/-- Calls a function of `math`. -/
def call (f : MathFunction) (positional : List Value) (named : Options) : Except Fault Value := do
  let bound ← f.signature.bind positional named
  match f, bound.args with
  | avg, _ => mean bound.rest
  | max, _ => Value.greatest bound.rest
  | min, _ => Value.least bound.rest
  | abs, [v] => v.mapNumbers Num.magnitude Float.abs
  | sqrt, [v] => root v
  | pow, [v, w] => Operator.pow.onValues v w
  | round, [v, precision] => rounded v precision
  | _, _ => throw .wrongType

end MathFunction

end ChartScript
