import ChartScript.Host.Signature
import ChartScript.Host.Source
import ChartScript.Number.Total
import ChartScript.Value.Operator

/-!
# Indicators as functions of a script

A script calls an indicator with a source and a length and gets the latest value of the indicator.
What is no source passes through unchanged, except where that would make no sense: the strength of
something that does not move is 50, and two numbers do not cross.

Three of the functions serve two ends (`seriesOrNumbers`): given a source and perhaps a length they
are an indicator, and given numbers they take the mean, the greatest or the least of them.
-/

namespace ChartScript

/-- The fault that an indicator's error is. -/
def IndicatorError.fault : IndicatorError → Fault
  | .unusable => .badValue
  | .zeroLength => .divisionByZero

namespace Indicator

/-- The length of an indicator if none is given. -/
def defaultLength : Indicator → Int
  | highest | lowest | sum | change => 1
  | stdev => 20
  | _ => 14

/-- What an indicator takes. -/
def signature (i : Indicator) : Signature where
  params := [("source", none), ("length", some (.int i.defaultLength))]
  takesRest := false
  takesOptions := true
  isMember := true

/-- The last values of a series, labelled anew. -/
def lastValues (number : Nat) (s : Series) : Series :=
  .ofValues (s.values.drop (s.length - number))

/-- Whether an indicator is taken anew from every window. -/
def isAnew : Indicator → Bool
  | wma | highest | lowest => true
  | _ => false

/-- As much of a series as the latest value of an indicator depends on. -/
def relevant (i : Indicator) (length : Int) (s : Series) : Series :=
  if i.isAnew then lastValues (max 1 length.toNat) s else s

/-- The latest value of an indicator over a series. -/
def latest (i : Indicator) (length : Int) (s : Series) : Except Fault Value :=
  match i.apply length (i.relevant length s) with
  | .ok result => .ok (.float result.latest)
  | .error e => .error e.fault

/-- The latest value of an indicator over a source of any kind. -/
def ofSource (i : Indicator) (source length : Value) : Except Fault Value := do
  match i, ← source.toSeries? with
  | rsi, some s =>
    if s.length ≤ 1 then return .float 50.0
    else
      let n ← windowLength length (s.length - 1) 14
      i.latest n (lastValues (n.toNat + 1) s)
  | rsi, none => return .float 50.0
  | change, some s => i.latest (← windowLength length (if 1 < s.length then s.length - 1 else 1) 1) s
  | _, some s => i.latest (← windowLength length s.length 1) s
  | _, none => return source

/-- Calls an indicator. -/
def call (i : Indicator) (positional : List Value) (named : Options) : Except Fault Value := do
  match (← i.signature.bind positional named).args with
  | [source, length] => i.ofSource source length
  | _ => throw .wrongType

end Indicator

namespace Crossing

/-- What a crossing takes. -/
def signature : Signature := .member ["series1", "series2"]

/-- A side of a crossing as a series: a value that is none is constant along the other side. -/
def side (v : Value) (own : Option Series) (other : Series) : Except Fault Series :=
  match own with
  | some s => .ok s
  | none => return other.withValues (List.replicate other.length (← v.toFloat))

/-- Whether the latest step of two series is a crossing. -/
def latest (c : Crossing) (s t : Series) : Except Fault Value :=
  match c.compute s t with
  | .error e => .error e.fault
  | .ok steps => .ok ((steps.getLast?.map Value.bool).getD (.float missing))

/-- Whether two sources, of which one may be a number, cross in the latest step. -/
def ofSources (c : Crossing) (v w : Value) : Except Fault Value := do
  let first ← v.toSeries?
  let second ← w.toSeries?
  match first, second with
  | none, none => return .bool false
  | some s, _ => c.latest s (← side w second s)
  | none, some t => c.latest (← side v none t) t

/-- Calls a crossing. -/
def call (c : Crossing) (positional : List Value) (named : Options) : Except Fault Value := do
  match (← signature.bind positional named).args with
  | [v, w] => c.ofSources v w
  | _ => throw .wrongType

end Crossing

/-! ### Indicators or numbers -/

/-- The ways to make one number of several. -/
inductive Reduction where
  /-- Their mean. -/
  | mean
  /-- The greatest of them. -/
  | greatest
  /-- The least of them. -/
  | least
deriving DecidableEq

namespace Reduction

/-- The first of several floats that none of the others beats, unless one of them is missing. -/
def unlessMissing (beats : Float → Float → Bool) : List Float → Except Fault Float
  | [] => .error .badValue
  | first :: rest =>
    .ok (if (first :: rest).any Window.isMissing then missing
      else rest.foldl (fun best x => if beats x best then x else best) first)

/-- Makes one number of floats. -/
def ofFloats (r : Reduction) (values : List Float) : Except Fault Float :=
  match r with
  | mean => .ok (Number.total values / Float.ofNat values.length)
  | greatest => unlessMissing (fun x best => best < x) values
  | least => unlessMissing (fun x best => x < best) values

/-- The better of two numbers by themselves; the second one where the two do not compare. -/
def better (keep : Num → Num → Bool) (best n : Num) : Except Fault Num := do
  let (a, b) ← best.levelled n
  return if keep a b then best else n

/-- The best of several numbers by themselves. -/
def bestOf (keep : Num → Num → Bool) : List Num → Except Fault Float
  | [] => .error .badValue
  | first :: rest => do (← rest.foldlM (better keep) first).toFloat

/-- Makes one number of numbers by themselves. -/
def ofNumbers (r : Reduction) (numbers : List Num) : Except Fault Float :=
  match r with
  | mean => do
    let total ← match numbers with
      | [] => pure (.int 0)
      | first :: rest => rest.foldlM Operator.add.onNumbers first
    return (← total.toFloat) / Float.ofNat numbers.length
  | greatest => bestOf (fun best n => n.lt best || n.same best) numbers
  | least => bestOf (fun best n => best.lt n || n.same best) numbers

/-- Makes one number of the cells of a block. -/
def ofBlock (r : Reduction) (b : Block) : Except Fault Float := do
  match b.type with
  | .text => throw .wrongType
  | .object => r.ofNumbers (← b.cells.mapM Block.number)
  | .half => return Number.toHalf (← r.ofFloats (← b.floats))
  | _ => r.ofFloats (← b.floats)

/-- Makes one number of values. -/
def ofValues (r : Reduction) (values : List Value) : Except Fault Value := do
  return .float (← r.ofBlock (← Block.ofValue (.tuple values)))

end Reduction

/-- An indicator, if the first value is a source and at most a length follows; otherwise a function
of numbers. -/
def seriesOrNumbers (i : Indicator) (r : Reduction) (values : List Value) (options : Options) :
    Except Fault Value :=
  match values with
  | [] => .ok (.float missing)
  | first :: _ => do
    let source? ← first.toSeries?
    if source?.isSome && values.length ≤ 2 then i.call values options
    else r.ofValues values

/-- Calls a function of `ta`. -/
def TaFunction.call (f : TaFunction) (positional : List Value) (named : Options) :
    Except Fault Value := do
  match f with
  | .indicator i => i.call positional named
  | .crossing c => c.call positional named
  | .avg => overloaded .sma .mean
  | .max => overloaded .highest .greatest
  | .min => overloaded .lowest .least
where
  /-- A function that takes any arguments. -/
  overloaded (i : Indicator) (r : Reduction) : Except Fault Value := do
    let bound ← Signature.anything.bind positional named
    seriesOrNumbers i r bound.rest bound.options

end ChartScript
