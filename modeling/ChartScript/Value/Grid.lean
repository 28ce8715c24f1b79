import ChartScript.Value.Number

/-!
# Grids

The shape of a grid is the list of the lengths of its axes, and its cells stand in one row, the last
axis running fastest.

Two shapes go together (`joinShape`) if their axes do, counted from the last. An axis of one place is
stretched to the length that the other shape has there (`stretched`), and missing axes in front count
as axes of one place.
-/

namespace ChartScript

namespace Grid

/-! ### Shapes -/

/-- The number of cells of a shape. -/
def volume (shape : List Nat) : Nat := shape.foldr (· * ·) 1

@[simp] theorem volume_nil : volume [] = 1 := rfl

@[simp] theorem volume_cons (length : Nat) (shape : List Nat) :
    volume (length :: shape) = length * volume shape := rfl

/-- The greatest number of axes. -/
def rankLimit : Nat := 64

/-- Cuts cells into a number of pieces of one size. -/
def pieces (size : Nat) : Nat → List α → List (List α)
  | 0, _ => []
  | number + 1, cells => cells.take size :: pieces size number (cells.drop size)

@[simp] theorem length_pieces (size number : Nat) (cells : List α) :
    (pieces size number cells).length = number := by
  induction number generalizing cells with
  | zero => rfl
  | succ number ih => simp [pieces, ih]

/-- A shape with as many axes of one place in front as it needs for a rank. -/
def padded (rank : Nat) (shape : List Nat) : List Nat :=
  List.replicate (rank - shape.length) 1 ++ shape

/-- The common length of two axes. -/
def joinAxis (m n : Nat) : Option Nat :=
  if m = n then some m else if m = 1 then some n else if n = 1 then some m else none

@[simp] theorem joinAxis_self (n : Nat) : joinAxis n n = some n := by simp [joinAxis]

/-- The common shape of two shapes. -/
def joinShape (s t : List Nat) : Option (List Nat) :=
  let rank := max s.length t.length
  (List.zip (padded rank s) (padded rank t)).mapM fun (m, n) => joinAxis m n

/-- The cells of a shape, stretched to another shape of the same rank. -/
def stretched : List Nat → List Nat → List α → List α
  | wanted :: shape, own :: rest, cells =>
    let rows := (pieces (volume rest) own cells).map (stretched shape rest)
    if own = wanted then rows.flatten else (List.replicate wanted rows.flatten).flatten
  | _, _, cells => cells

/-- The cells of a shape, stretched to another shape. -/
def spread (target own : List Nat) (cells : List α) : List α :=
  if own = target then cells else stretched target (padded target.length own) cells

@[simp] theorem spread_self (shape : List Nat) (cells : List α) :
    spread shape shape cells = cells := by
  simp [spread]

/-! ### Cells -/

/-- The floats of a grid. -/
def values (g : Grid) : List Float := g.cells.map (·.value)

/-- Applies a function to every float. -/
def map (f : Float → Float) (g : Grid) : Grid := { g with cells := g.cells.map (·.map f) }

/-- A grid as a value: a cell by itself if it has no axes. -/
def toValue (g : Grid) : Value :=
  match g.shape, g.cells with
  | [], [cell] => cell.toValue
  | _, _ => .grid g

end Grid

end ChartScript
