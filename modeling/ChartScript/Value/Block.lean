import ChartScript.Value.Grid

/-!
# Blocks

Where lists take part in an operation item by item, or as positions in a subscript, a list is first
looked at as a whole: it must be rectangular, and all its items are taken to be of one type, the
weakest that holds them all (`Block.ofValue`). A list that mixes integers and floats is one of
doubles, a text among numbers makes texts of all of them, and what is neither a number nor a text
leaves every item as it is.

The types form a lattice (`CellType.join`). Where there is no item at all the type is that of truth
values, the weakest, until the whole list turns out to be empty: then it is one of doubles.
-/

namespace ChartScript

-- powers are those of the core library, whatever else a module imports
attribute [local instance (high)] instPowNat

/-- What the cells of a block are. -/
inductive CellType where
  /-- Truth values. -/
  | truth
  /-- Integers of 64 bits with a sign. -/
  | integer
  /-- Integers of 64 bits without a sign. -/
  | unsigned
  /-- Halves. -/
  | half
  /-- Doubles. -/
  | double
  /-- Texts. -/
  | text
  /-- Values of any kind, each as it is. -/
  | object
deriving DecidableEq, Inhabited

namespace CellType

/-- The weakest type that holds two types. -/
def join : CellType → CellType → CellType
  | object, _ | _, object => object
  | text, _ | _, text => text
  | truth, t | t, truth => t
  | integer, integer => integer
  | unsigned, unsigned => unsigned
  | half, half => half
  | _, _ => double

@[simp] theorem join_self (t : CellType) : t.join t = t := by cases t <;> rfl

/-- The least integer of 64 bits with a sign. -/
def leastInteger : Int := -9223372036854775808

/-- The type of an integer. -/
def ofInt (n : Int) : CellType :=
  if leastInteger ≤ n ∧ n < 2 ^ (63 : Nat) then integer
  else if 0 ≤ n ∧ n < 2 ^ (64 : Nat) then unsigned
  else object

/-- The type of a value that is a cell by itself. -/
def ofCell (v : Value) : CellType :=
  match v with
  | .bool _ => truth
  | .int n => ofInt n
  | .float _ | .double _ => double
  | .half _ => half
  | v => if v.text?.isSome then text else object

/-- The type of the cells of a grid. -/
def ofGrid : GridType → CellType
  | .half => half
  | .double => double
  | .boxed => object

end CellType

/-- A rectangular arrangement of values of one type. -/
structure Block where
  /-- What the cells are. -/
  type : CellType
  /-- The number of places along each axis. -/
  shape : List Nat
  /-- The cells, the last axis running fastest. -/
  cells : List Value

namespace Block

/-- A value that is a cell by itself. -/
def single (v : Value) : Block := ⟨.ofCell v, [], [v]⟩

/-- What a cell of an unboxed row is by itself: a plain float. -/
def loose (c : Cell) : Value := .float c.value

/-- The cells of a row, which come by themselves if the row is boxed. -/
def looseCells (boxed : Bool) (cells : List Cell) : List Value :=
  cells.map (if boxed then Cell.toValue else loose)

/-- A series as a block. -/
def ofSeries (s : Series) : Block where
  type := if s.boxed then .object else .double
  shape := [s.length]
  cells := looseCells s.boxed s.cells

/-- A grid as a block. -/
def ofGrid (g : Grid) : Block where
  type := .ofGrid g.type
  shape := g.shape
  cells := looseCells (g.type == .boxed) g.cells

/-- Blocks of one shape, one behind the other along a new axis. -/
def stack : List Block → Option Block
  | [] => some ⟨.truth, [0], []⟩
  | first :: rest =>
    if rest.all fun row => row.shape == first.shape then
      some
        { type := rest.foldl (fun type row => type.join row.type) first.type
          shape := (rest.length + 1) :: first.shape
          cells := (first :: rest).flatMap cells }
    else none

mutual

/-- The block that a value is, if it is rectangular. A text is a cell and not a row of characters. -/
def ofValue? : Value → Option Block
  | .list items | .tuple items => ofItems? items >>= stack
  | .series s => some (ofSeries s)
  | .grid g => some (ofGrid g)
  | v => some (single v)

/-- The blocks that several values are. -/
def ofItems? : List Value → Option (List Block)
  | [] => some []
  | v :: rest => do return (← ofValue? v) :: (← ofItems? rest)

end

/-- The block that a value is. -/
def ofValue (v : Value) : Except Fault Block :=
  match ofValue? v with
  | none => .error .badValue
  | some b =>
    if Grid.rankLimit < b.shape.length then .error .badValue
    else if b.cells.isEmpty && b.type == .truth then .ok { b with type := .double }
    else .ok b

/-- The number in a cell. -/
def number (v : Value) : Except Fault Num :=
  match v.num? with
  | some n => .ok n
  | none => .error .wrongType

/-- The cells as floats. -/
def floats (b : Block) : Except Fault (List Float) :=
  b.cells.mapM fun v => do (← number v).toFloat

/-- The cells as they are by themselves: in a block of one type of floats a cell is a plain float. -/
def objects (b : Block) : List Value :=
  if b.type = .object then b.cells
  else b.cells.map fun v =>
    match v with
    | .double x | .half x => .float x
    | v => v

end Block

end ChartScript
