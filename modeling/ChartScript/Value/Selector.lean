import ChartScript.Value.Block

/-!
# Selectors

What the parts of a subscript pick out of a grid. A part is a *selector* (`Subscript.Selector`). It
asks for places along the next axis of the grid, or it only adds an axis to the result.

An integer asks for one place and removes the axis. A list of integers asks for as many places as it
has items, and puts its own axes where the axis was. A list of truth values asks for the places at
which it is true, along as many axes as it has itself; a truth value alone adds an axis, of one place
or of none.

The selectors of one subscript work together (`Subscript.select`): all places are stretched to one
common shape, and at every place of that shape the places of all selectors together say which row of
cells is meant. Where nothing has been asked for, along the last axes, the whole of the grid is taken.
-/

namespace ChartScript

-- powers are those of the core library, whatever else a module imports
attribute [local instance (high)] instPowNat

namespace Subscript

/-! ### Positions in a row -/

/-- The place that a position means in a row of a given length: a negative one counts from the end. -/
def place (length : Nat) (position : Int) : Except Fault Nat :=
  let fromStart := if position < 0 then position + length else position
  if 0 ≤ fromStart ∧ fromStart < length then .ok fromStart.toNat else .error .outOfRange

/-- A place of a row means itself. -/
@[simp] theorem place_ofNat {length n : Nat} (lt : n < length) : place length n = .ok n := by
  have start : ¬ ((n : Int) < 0) := by omega
  simp only [place, if_neg start]
  rw [if_pos (by omega)]
  simp

/-- The item at a position. -/
def item (row : List α) (position : Int) : Except Fault α := do
  match row[← place row.length position]? with
  | some x => return x
  | none => .error .outOfRange

/-! ### Selectors -/

/-- A part of a subscript of a grid. -/
inductive Selector where
  /-- An axis of one place is added. -/
  | newAxis
  /-- An axis of one place or of none is added. -/
  | flag (keep : Bool)
  /-- Places are picked along an axis, whose length may be prescribed; they stand in a shape. -/
  | places (length : Option Nat) (shape : List Nat) (positions : List Int)

namespace Selector

/-- Whether a selector does no more than adding an axis. -/
def isNewAxis : Selector → Bool
  | newAxis => true
  | _ => false

/-- The shape of what a selector picks. -/
def shape : Selector → List Nat
  | newAxis => []
  | flag keep => [if keep then 1 else 0]
  | places _ shape _ => shape

/-- An integer as a selector. -/
def ofInt (n : Int) : Except Fault Selector :=
  match CellType.ofInt n with
  | .integer => .ok (places none [] [n])
  | .unsigned => .error .tooLarge
  | _ => .error .outOfRange

/-- The places at which a mask is true. -/
def marked (mask : List Value) : List Nat :=
  (mask.zipIdx.filter fun (v, _) => v matches .bool true).map (·.2)

/-- A mask as selectors, one for each of its axes. -/
def ofMask (mask : Block) : List Selector :=
  go mask.shape
where
  /-- The selectors of the last axes. -/
  go : List Nat → List Selector
    | [] => []
    | length :: rest =>
      let positions := (marked mask.cells).map fun n => ((n / Grid.volume rest % length : Nat) : Int)
      places (some length) [positions.length] positions :: go rest

/-- The integer that a cell of a block of integers stands for; one without a sign is taken as one
with a sign, by what its 64 bits are. -/
def signed (v : Value) : Int :=
  match v.num? with
  | some (.int n) => if n < 2 ^ (63 : Nat) then n else n - 2 ^ (64 : Nat)
  | _ => 0

/-- A block as selectors. -/
def ofBlock (b : Block) : Except Fault (List Selector) :=
  if b.cells.isEmpty then .ok [places none b.shape []]
  else
    match b.type with
    | .truth => .ok (ofMask b)
    | .integer | .unsigned => .ok [places none b.shape (b.cells.map signed)]
    | _ => .error .outOfRange

/-- One part of a subscript as selectors. -/
def ofPart (v : Value) : Except Fault (List Selector) :=
  match v with
  | .null => .ok [newAxis]
  | .bool keep => .ok [flag keep]
  | .int n => return [← ofInt n]
  | .list _ | .tuple _ | .series _ => do ofBlock (← Block.ofValue v)
  | _ => .error .outOfRange

/-- A subscript as selectors. A tuple has several parts. -/
def ofSubscript (v : Value) : Except Fault (List Selector) :=
  match v with
  | .tuple parts => List.flatten <$> parts.mapM ofPart
  | v => ofPart v

end Selector

/-! ### Selecting -/

/-- The common shape of what selectors pick. -/
def pickedShape (selectors : List Selector) : Option (List Nat) :=
  selectors.foldlM (fun shape s => Grid.joinShape shape s.shape) []

/-- The shape of a result: the picked shape stands where the selectors that pick stand, if these are
neighbours, and in front of everything else if they are not. Every other selector adds an axis of one
place. -/
def resultShape (selectors : List Selector) (picked rest : List Nat) : List Nat :=
  let before := selectors.takeWhile Selector.isNewAxis
  let others := (selectors.dropWhile Selector.isNewAxis).dropWhile (!·.isNewAxis)
  let single (axes : List Selector) := (axes.filter Selector.isNewAxis).map fun _ => 1
  if others.all Selector.isNewAxis then single before ++ picked ++ single others ++ rest
  else picked ++ single selectors ++ rest

/-- The places that a selector picks along an axis, stretched to the picked shape. -/
def placesAlong (length : Nat) (picked : List Nat) (prescribed : Option Nat) (shape : List Nat)
    (positions : List Int) : Except Fault (List Nat) :=
  if prescribed.any (· != length) then .error .outOfRange
  else (Grid.spread picked shape positions).mapM (place length)

/-- Which row of cells is meant at every place of the picked shape, and the axes on which nothing is
picked. The rows of the axes so far are given. -/
def rowsAlong (picked : List Nat) (rows : List Nat) :
    List Nat → List Selector → Except Fault (List Nat × List Nat)
  | shape, [] => .ok (rows, shape)
  | [], .places .. :: _ => .error .outOfRange
  | length :: shape, .places prescribed own positions :: selectors => do
    let next ← placesAlong length picked prescribed own positions
    rowsAlong picked (List.zipWith (fun row n => row * length + n) rows next) shape selectors
  | shape, _ :: selectors => rowsAlong picked rows shape selectors

/-- What selectors pick out of a grid. -/
def select (g : Grid) (selectors : List Selector) : Except Fault Grid :=
  match pickedShape selectors with
  | none => .error .outOfRange
  | some picked => do
    let (rows, rest) ←
      rowsAlong picked (List.replicate (Grid.volume picked) 0) g.shape selectors
    let size := Grid.volume rest
    let all := (Grid.pieces size (Grid.volume (g.shape.take (g.shape.length - rest.length)))
      g.cells).toArray
    let shape := resultShape selectors picked rest
    if Grid.rankLimit < shape.length then throw .outOfRange
    return { g with shape, cells := rows.flatMap fun row => all.getD row [] }

/-- What a subscript picks out of a grid. -/
def ofGrid (g : Grid) (index : Value) : Except Fault Value := do
  return (← select g (← Selector.ofSubscript index)).toValue

/-- What a subscript picks out of a single cell, as a grid without axes. -/
def ofSingle (type : GridType) (cell : Cell) (index : Value) : Except Fault Value :=
  match ofGrid { type, shape := [], cells := [cell] } index with
  | .ok v => .ok v
  | .error _ => .error .outOfRange

end Subscript

end ChartScript
