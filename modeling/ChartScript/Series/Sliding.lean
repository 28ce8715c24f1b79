import ChartScript.Series.Window

/-!
# Sliding sums

The sum, the mean and the deviation of the last `n` values are not taken anew at every place. The
window slides: one value leaves it and one joins (`Sliding`), and a few floats say what it comes to.

So that the result does not drift away from the values, the floats are corrected by what rounding has
added to them (`corrected`), with one correction for what joins and another one for what leaves. Three
rules catch the rest of an error where it would show. A window of equal values is known as one
(`Streak`). The mean of values of one sign cannot have the other. And where a value leaves beside which
all others were small, so that hardly a digit of theirs is left, the window is taken anew.

A missing value neither joins nor leaves, and a window that lacks one has no result.
-/

namespace ChartScript

open Window (isMissing usable)

/-- A computation over a window. -/
structure Sliding (σ : Type) where
  /-- What is known of an empty window. -/
  empty : σ
  /-- A value joins the window. -/
  join : σ → Float → σ
  /-- A value leaves the window. -/
  leave : σ → Float → σ
  /-- Whether too little is left to go on with. -/
  isSpent : σ → Bool
  /-- The number of values in the window that are not missing. -/
  count : σ → Nat
  /-- What a window without missing values comes to. -/
  result : σ → Float

namespace Sliding

variable {σ : Type}

/-- What is known of a window of given values, one after the other. -/
def taken (c : Sliding σ) (values : List Float) : σ := values.foldl c.join c.empty

/-- What is known of the window after every value of a row that joins. So far it holds `held` values,
which `row` starts with; a full window first loses the oldest one. A window of a single value is always
taken anew. -/
def states (c : Sliding σ) (size : Nat) (window : σ) (held : Nat) (row : List Float) :
    List Float → List σ
  | [] => []
  | x :: rest =>
    let isFull := size ≤ held
    let kept := if isFull then (row.head?.map (c.leave window)).getD window else window
    let row := if isFull then row.tail else row
    let held := if isFull then held else held + 1
    let joined := c.join kept x
    let next := if size ≤ 1 || c.isSpent joined then c.taken (row.take held) else joined
    next :: states c size next held row rest

/-- The results of a computation over windows of a given size, at every place of a row. -/
def run (c : Sliding σ) (size : Nat) (values : List Float) : List Float :=
  let row := values.map usable
  (c.states size c.empty 0 row row).map fun window =>
    if c.count window < size then missing else c.result window

@[simp] theorem length_states (c : Sliding σ) (size : Nat) (window : σ) (held : Nat)
    (row rest : List Float) : (c.states size window held row rest).length = rest.length := by
  induction rest generalizing window held row with
  | nil => rfl
  | cons x rest ih => simp [states, ih]

/-- There is one result for every place. -/
@[simp] theorem length_run (c : Sliding σ) (size : Nat) (values : List Float) :
    (c.run size values).length = values.length := by simp [run]

end Sliding

/-! ### Corrections -/

/-- A sum after one more summand, and what rounding has added to it; the summand is first corrected by
what it added before. -/
def corrected (sum excess x : Float) : Float × Float :=
  let y := x - excess
  let next := sum + y
  (next, next - sum - y)

/-- The value that joined last, and how many times in a row it did. -/
structure Streak where
  /-- The value. -/
  last : Float
  /-- The number of times. -/
  length : Nat

namespace Streak

/-- No value has joined yet. -/
def none : Streak := ⟨missing, 0⟩

/-- One more value joins. -/
def join (s : Streak) (x : Float) : Streak := ⟨x, if x == s.last then s.length + 1 else 1⟩

end Streak

/-! ### Sums and means -/

/-- The sum of a window. -/
structure Total where
  /-- The number of values. -/
  count : Nat
  /-- How many of them are negative, or zero with that sign. -/
  negatives : Nat
  /-- The sum. -/
  sum : Float
  /-- What rounding has added where values joined. -/
  excessIn : Float
  /-- What rounding has added where values left. -/
  excessOut : Float
  /-- The latest values, as far as they are equal. -/
  streak : Streak

namespace Total

/-- The sum of no values. -/
def zero : Total := ⟨0, 0, 0.0, 0.0, 0.0, .none⟩

/-- One for a float with a negative sign. -/
def negativeSign (x : Float) : Nat := if Number.signBit x then 1 else 0

/-- A value joins. -/
def join (t : Total) (x : Float) : Total :=
  if isMissing x then t
  else
    let (sum, excessIn) := corrected t.sum t.excessIn x
    { t with count := t.count + 1, negatives := t.negatives + negativeSign x, sum, excessIn,
             streak := t.streak.join x }

/-- A value leaves. -/
def leave (t : Total) (x : Float) : Total :=
  if isMissing x then t
  else
    let (sum, excessOut) := corrected t.sum t.excessOut (-x)
    { t with count := t.count - 1, negatives := t.negatives - negativeSign x, sum, excessOut }

/-- The sum of the values. -/
def value (t : Total) : Float :=
  if t.count ≤ t.streak.length then t.streak.last * Float.ofNat t.count else t.sum

/-- The mean of the values. -/
def mean (t : Total) : Float :=
  let m := t.sum / Float.ofNat t.count
  if t.count ≤ t.streak.length then t.streak.last
  else if (t.negatives = 0 ∧ m < 0.0) ∨ (t.negatives = t.count ∧ 0.0 < m) then 0.0
  else m

end Total

/-! ### Deviations -/

/-- How far the values of a window are spread. -/
structure Spread where
  /-- The number of values. -/
  count : Nat
  /-- Their mean. -/
  middle : Float
  /-- The sum of the squares of their distances from the mean. -/
  squares : Float
  /-- What rounding has added where values joined. -/
  excessIn : Float
  /-- What rounding has added where values left. -/
  excessOut : Float
  /-- The latest values, as far as they are equal. -/
  streak : Streak
  /-- Whether hardly a digit of the squares is left. -/
  isSpent : Bool

namespace Spread

/-- The spread of no values. -/
def zero : Spread := ⟨0, 0.0, 0.0, 0.0, 0.0, .none, false⟩

/-- The share of the squares below which only three digits of what is left can be right. -/
def leastShare : Float := 1000.0 / 4503599627370496.0

/-- A value joins. -/
def join (s : Spread) (x : Float) : Spread :=
  if isMissing x then s
  else
    let count := s.count + 1
    let (distance, excessIn) := distanced s.middle s.excessIn x
    let middle := s.middle + distance / Float.ofNat count
    { s with
      count, middle, excessIn
      squares := s.squares + (x - (s.middle - s.excessIn)) * (x - middle)
      streak := s.streak.join x }
where
  /-- The distance of a value from the mean, and what rounding has added to it. -/
  distanced (middle excess x : Float) : Float × Float :=
    let y := x - excess
    let distance := y - middle
    (distance, distance + middle - y)

/-- A value leaves. -/
def leave (s : Spread) (x : Float) : Spread :=
  if isMissing x then s
  else if s.count ≤ 1 then { s with count := 0, middle := 0.0, squares := 0.0 }
  else
    let count := s.count - 1
    let (distance, excessOut) := join.distanced s.middle s.excessOut x
    let middle := s.middle - distance / Float.ofNat count
    let squares := s.squares - (x - (s.middle - s.excessOut)) * (x - middle)
    { s with
      count, middle, excessOut, squares
      isSpent := s.isSpent || squares < s.squares * leastShare }

/-- The standard deviation of the values as a whole population. -/
def deviation (s : Spread) : Float :=
  if s.count ≤ max 1 s.streak.length then 0.0
  else
    let variance := s.squares / Float.ofNat s.count
    if variance < 0.0 then 0.0 else Float.sqrt variance

end Spread

/-! ### The computations -/

namespace Sliding

/-- The sum. -/
def sum : Sliding Total where
  empty := .zero
  join := Total.join
  leave := Total.leave
  isSpent := fun _ => false
  count := Total.count
  result := Total.value

/-- The mean. -/
def mean : Sliding Total := { sum with result := Total.mean }

/-- The standard deviation. -/
def deviation : Sliding Spread where
  empty := .zero
  join := Spread.join
  leave := Spread.leave
  isSpent := Spread.isSpent
  count := Spread.count
  result := Spread.deviation

end Sliding

end ChartScript
