import ChartScript.Series.Sliding

/-!
# Indicators

What the script language offers on a series. Every indicator gives a series with the same labels;
its value at a place depends on the values up to that place alone.

An indicator can fail on its length only (`IndicatorError`).
-/

namespace ChartScript

/-- Why an indicator cannot be computed. -/
inductive IndicatorError where
  /-- The length is not usable, or the labels of two series differ. -/
  | unusable
  /-- The length is zero where a share of it is needed. -/
  | zeroLength
deriving DecidableEq

/-- The indicators that look back over a length. -/
inductive Indicator where
  /-- The mean. -/
  | sma
  /-- The exponential mean of a span. -/
  | ema
  /-- The mean with linear weights. -/
  | wma
  /-- The exponential mean in which a new value has one share. -/
  | rma
  /-- The standard deviation. -/
  | stdev
  /-- The greatest value. -/
  | highest
  /-- The least value. -/
  | lowest
  /-- The sum. -/
  | sum
  /-- The strength of gains against losses, from 0 to 100. -/
  | rsi
  /-- The difference from an earlier value. -/
  | change
deriving DecidableEq, Inhabited

namespace Indicator

open Window

/-- An indicator over windows, given its value over no values at all. -/
def rolledOr (ofNothing : Float) (run : Nat → List Float → List Float) (length : Int)
    (values : List Float) : Except IndicatorError (List Float) :=
  if length < 0 then .error .unusable
  else if length = 0 then .ok (values.map fun _ => ofNothing)
  else .ok (run length.toNat values)

/-- An indicator over windows that is missing over no values. -/
def rolled (run : Nat → List Float → List Float) (length : Int) (values : List Float) :
    Except IndicatorError (List Float) :=
  rolledOr missing run length values

/-- The gains in a row of changes: what is not a gain counts as nothing. -/
def gains (changes : List Float) : List Float := changes.map fun d => if 0.0 < d then d else 0.0

/-- The losses in a row of changes: what is not a loss counts as nothing. -/
def losses (changes : List Float) : List Float :=
  changes.map fun d => -(if d < 0.0 then d else 0.0)

/-- The relative strength of a mean gain against a mean loss; 50 where nothing moved. -/
def strength (gain loss : Float) : Float :=
  if gain == 0.0 && loss == 0.0 then 50.0 else 100.0 - 100.0 / (1.0 + gain / loss)

/-- The values of an indicator over a row of values. -/
def compute (indicator : Indicator) (length : Int) (values : List Float) :
    Except IndicatorError (List Float) :=
  match indicator with
  | sma => rolled Sliding.mean.run length values
  | wma => rolled (rolling linearMean) length values
  | stdev => rolled Sliding.deviation.run length values
  | highest => rolled (rolling greatest) length values
  | lowest => rolled (rolling least) length values
  | sum => rolledOr 0.0 Sliding.sum.run length values
  | ema =>
    if length < 1 then .error .unusable
    else .ok (exponential (.ofSpan (Float.ofInt length)) values)
  | rma =>
    if length = 0 then .error .zeroLength
    else if length < 0 then .error .unusable
    else .ok (exponential (.ofWeight (1.0 / Float.ofInt length)) values)
  | rsi => do
    let changes := differences 1 values
    let up ← rolled Sliding.mean.run length (gains changes)
    let down ← rolled Sliding.mean.run length (losses changes)
    return List.zipWith strength up down
  | change => .ok (differences length values)

/-- An indicator of a series. -/
def apply (indicator : Indicator) (length : Int) (s : Series) : Except IndicatorError Series :=
  return s.withValues (← indicator.compute length s.values)

end Indicator

/-! ### Crossings -/

/-- The two ways in which one series can cross another. -/
inductive Crossing where
  /-- From below, or from the same value, to above. -/
  | upward
  /-- From above, or from the same value, to below. -/
  | downward
deriving DecidableEq, Inhabited

namespace Crossing

/-- Whether the pair `now` lies on the far side and the pair before it does not. -/
def crossed (c : Crossing) (before now : Float × Float) : Bool :=
  match c with
  | upward => now.1 > now.2 && before.1 ≤ before.2
  | downward => now.1 < now.2 && before.1 ≥ before.2

/-- For every place, whether the first series crosses the second there. The labels must be the
same. -/
def compute (c : Crossing) (s t : Series) : Except IndicatorError (List Bool) :=
  if s.labels = t.labels then
    let now := s.values.zip t.values
    let before := (missing, missing) :: now
    .ok (List.zipWith c.crossed before now)
  else .error .unusable

end Crossing

end ChartScript
