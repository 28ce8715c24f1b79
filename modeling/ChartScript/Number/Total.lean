/-!
# Sums of many floats

Adding floats one after the other loses more with every float. `total` splits a long row in two and
adds the two sums; only short rows are added from the first float to the last, and rows of middle
length in eight columns. The result is a definite one: where the row is split, and in which order the
columns come together, is fixed.
-/

namespace ChartScript.Number

/-- The sum of floats from the first to the last, on top of a float. -/
def running (start : Float) (values : List Float) : Float := values.foldl (· + ·) start

/-- Adds neighbours. -/
def paired : List Float → List Float
  | x :: y :: rest => (x + y) :: paired rest
  | values => values

/-- Adds rows of eight to eight sums, and leaves what follows them. -/
def columnSums : Nat → List Float → List Float → List Float × List Float
  | 0, sums, values => (sums, values)
  | rows + 1, sums, values =>
    columnSums rows (List.zipWith (· + ·) sums (values.take 8)) (values.drop 8)

/-- The sum of a row of at least eight floats in eight columns. -/
def inColumns (values : List Float) : Float :=
  let (sums, rest) := columnSums (values.length / 8 - 1) (values.take 8) (values.drop 8)
  running ((paired (paired (paired sums))).headD 0.0) rest

/-- The length of the first part of a long row: about half, and a multiple of eight. -/
def firstPart (length : Nat) : Nat := length / 2 / 8 * 8

/-- The sum of a row of floats. -/
def total (values : List Float) : Float :=
  if values.length < 8 then running (-0.0) values
  else if values.length ≤ 128 then inColumns values
  else
    let first := firstPart values.length
    total (values.take first) + total (values.drop first)
termination_by values.length
decreasing_by
  · simp only [List.length_take, firstPart]
    omega
  · simp only [List.length_drop, firstPart]
    omega

@[simp] theorem total_nil : total [] = -0.0 := by
  rw [total]
  rfl

end ChartScript.Number
