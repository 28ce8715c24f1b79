import ChartScript.Series.Basic

/-!
# Windows over a series

Running computations take the values one after the other and look back from each.

* A *rolling* computation (`rolling`) looks at the last `n` values and is missing where there are
  fewer, or where one of them is missing.
* An *exponential* one (`exponential`) keeps a mean in which the weight of a value fades by a fixed
  factor a step. It starts with the first value, and a missing value leaves it as it is but fades it
  all the same.
* A *shift* (`shifted`) looks at the one value `n` places before.

The infinities count as missing in the first two.
-/

namespace ChartScript.Window

/-- A value that a running computation can use. -/
def usable (x : Float) : Float := if x.isInf then missing else x

/-- Whether a value is missing. -/
def isMissing (x : Float) : Bool := x.isNaN

/-! ### Rolling computations -/

/-- The first `number` stretches of a given size, each starting one value later. -/
def stretches (size : Nat) : Nat → List Float → List (List Float)
  | 0, _ => []
  | number + 1, values => values.take size :: stretches size number (values.drop 1)

/-- For every place, the last `size` values up to it, where there are so many; the size is not
zero. -/
def windows (size : Nat) (values : List Float) : List (Option (List Float)) :=
  List.replicate (min (size - 1) values.length) none
    ++ (stretches size (values.length + 1 - size) values).map some

@[simp] theorem length_stretches (size number : Nat) (values : List Float) :
    (stretches size number values).length = number := by
  induction number generalizing values with
  | zero => rfl
  | succ number ih => simp [stretches, ih]

@[simp] theorem length_windows {size : Nat} (pos : 0 < size) (values : List Float) :
    (windows size values).length = values.length := by
  simp [windows]
  omega

/-- A window as far as it can be used. -/
def complete? (window : Option (List Float)) : Option (List Float) :=
  window.bind fun values => if values.isEmpty || values.any isMissing then none else some values

/-- The rolling computation of a summary over windows of a given size. -/
def rolling (summary : List Float → Float) (size : Nat) (values : List Float) : List Float :=
  (windows size (values.map usable)).map fun window =>
    ((complete? window).map summary).getD missing

/-- The sum of values, from the first to the last. -/
def total (values : List Float) : Float := values.foldl (· + ·) 0.0

/-- The greatest value, and among equal ones the last. -/
def greatest : List Float → Float
  | [] => missing
  | first :: rest => rest.foldl (fun best x => if best ≤ x then x else best) first

/-- The least value, and among equal ones the last. -/
def least : List Float → Float
  | [] => missing
  | first :: rest => rest.foldl (fun best x => if x ≤ best then x else best) first

/-- The mean in which the values weigh 1, 2, 3 and so on. -/
def linearMean (values : List Float) : Float :=
  let weights := (List.range values.length).map fun place => Float.ofNat (place + 1)
  total (List.zipWith (· * ·) values weights) / total weights

/-! ### Exponential means -/

/-- How an exponential mean weighs. -/
structure Fading where
  /-- The centre of mass: the weight of a new value is one over one more than it. -/
  centre : Float

namespace Fading

/-- The weight of a new value. -/
def weight (f : Fading) : Float := 1.0 / (1.0 + f.centre)

/-- The factor by which an old value fades in a step. -/
def factor (f : Fading) : Float := 1.0 - f.weight

/-- The fading of a given span. -/
def ofSpan (span : Float) : Fading where
  centre := (span - 1.0) / 2.0

/-- The fading in which a new value has a given weight. -/
def ofWeight (weight : Float) : Fading where
  centre := (1.0 - weight) / weight

end Fading

/-- A running exponential mean. -/
structure Mean where
  /-- The mean so far; it is missing before the first value. -/
  mean : Float
  /-- The weight that the mean has kept since the last value. -/
  kept : Float

/-- Takes one more value into an exponential mean. A new value has its fixed weight, but for a centre
of mass of one it has just the weight that the mean has lost. -/
def Mean.step (f : Fading) (m : Mean) (x : Float) : Mean :=
  if isMissing m.mean then { mean := x, kept := 1.0 }
  else
    let kept := m.kept * f.factor
    if isMissing x then { m with kept }
    else if m.mean == x then { m with kept := 1.0 }
    else
      let new := if f.centre == 1.0 then 1.0 - kept else f.weight
      { mean := (kept * m.mean + new * x) / (kept + new), kept := 1.0 }

/-- The exponential means of a row of values, after every one of them. -/
def meansFrom (f : Fading) (m : Mean) : List Float → List Float
  | [] => []
  | x :: rest =>
    let next := m.step f x
    next.mean :: meansFrom f next rest

/-- The exponential means of a row of values. -/
def exponential (f : Fading) (values : List Float) : List Float :=
  meansFrom f { mean := missing, kept := 1.0 } (values.map usable)

/-! ### Shifts -/

/-- The row whose values are those `places` before; a negative number looks ahead. -/
def shifted (places : Int) (values : List Float) : List Float :=
  if 0 ≤ places then
    List.replicate (min places.toNat values.length) missing
      ++ values.take (values.length - places.toNat)
  else
    values.drop (-places).toNat
      ++ List.replicate (min (-places).toNat values.length) missing

/-- The difference of every value from the one `places` before. -/
def differences (places : Int) (values : List Float) : List Float :=
  List.zipWith (· - ·) values (shifted places values)

end ChartScript.Window
