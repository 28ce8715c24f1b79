import ChartScript.Value.Block

/-!
# Operators on values

The five operators between two values, and the two signs.

* Sums, differences and products of plain numbers are those of numbers, texts and lists can be added
  to their like, and both can be repeated by an integer.
* A quotient or a power of numbers is a double, and of lists a grid.
* A series combines with numbers, with rows that can be stretched to its length, and with other
  series.
* A grid combines with numbers and with lists; so does a double, but not in a product.

Item by item (`Operator.onBlocks`) there are two ways to compute. Blocks of numbers are floats of one
type, and so is the result. Blocks of which one holds values of any kind are combined one item at a
time, as numbers by themselves, and the result is boxed; then a division by zero is a fault, and a
power is not possible.

`Operator.apply` tells a wrong type by the names of the two types; all other faults pass through.
-/

namespace ChartScript

-- powers are those of the core library, whatever else a module imports
attribute [local instance (high)] instPowNat

/-- The operators between two values. -/
inductive Operator where
  /-- A sum. -/
  | add
  /-- A difference. -/
  | sub
  /-- A product. -/
  | mul
  /-- A quotient. -/
  | div
  /-- A power. -/
  | pow
deriving DecidableEq, Inhabited

namespace Operator

/-- The operator that a text spells. -/
def ofText? (op : String) : Option Operator :=
  if op = "+" then some add
  else if op = "-" then some sub
  else if op = "*" then some mul
  else if op = "/" then some div
  else if op = "^" then some pow
  else none

/-- The text of an operator. -/
def text : Operator → String
  | add => "+"
  | sub => "-"
  | mul => "*"
  | div => "/"
  | pow => "^"

@[simp] theorem ofText?_text (op : Operator) : ofText? op.text = some op := by
  cases op <;> rfl

/-- The operator on floats. -/
def onFloats : Operator → Float → Float → Float
  | add => (· + ·)
  | sub => (· - ·)
  | mul => (· * ·)
  | div => (· / ·)
  | pow => Float.pow

/-- Whether the operator always gives floats, and takes lists as grids. -/
def isReal : Operator → Bool
  | div | pow => true
  | _ => false

/-! ### Numbers -/

/-- A quotient or a power of two numbers. A power is one of doubles, whatever goes in. -/
def onReals (op : Operator) (a b : Num) : Except Fault Num := do
  let type := match op, a.floatType.join b.floatType with
    | div, .half => FloatType.half
    | _, _ => .double
  return .float type (type.within op.onFloats (← a.toFloat) (← b.toFloat))

/-- The operator on numbers. -/
def onNumbers (op : Operator) (a b : Num) : Except Fault Num :=
  match op with
  | add => Num.combine (· + ·) (· + ·) a b
  | sub => Num.combine (· - ·) (· - ·) a b
  | mul => Num.combine (· * ·) (· * ·) a b
  | div | pow => op.onReals a b

/-- The quotient of two integers, rounded once. -/
def quotient (m n : Int) : Except Fault Float :=
  if n = 0 then .error .divisionByZero
  else
    match Number.ofQuotient? (if n < 0 then -m else m) n.natAbs with
    | some x => .ok x
    | none => .error .tooLarge

/-- A quotient of two numbers by themselves: that of integers is rounded once, and among plain floats
the divisor must not be zero. -/
def looseQuotient (a b : Num) : Except Fault Num :=
  match a, b with
  | .int m, .int n => .float .plain <$> quotient m n
  | a, b => do
    let x ← a.toFloat
    let y ← b.toFloat
    let type := a.floatType.join b.floatType
    if type = .plain && y == 0.0 then throw .divisionByZero
    return .float type (type.within (· / ·) x y)

/-- The operator on two values by themselves, as items of boxed rows. -/
def onObjects (op : Operator) (v w : Value) : Except Fault Cell := do
  let a ← Block.number v
  let b ← Block.number w
  let result ← if op = div then looseQuotient a b else op.onNumbers a b
  result.toCell

/-! ### Rows -/

/-- The number of items up to which a row can be repeated. -/
def memoryLimit : Nat := 100000000

/-- A row repeated. A number of times that is not positive leaves nothing, and an empty row stays
empty. -/
def repeated (count : Int) (row : List α) : Except Fault (List α) :=
  if count < CellType.leastInteger || 2 ^ (63 : Nat) ≤ count then .error .tooLarge
  else if row.isEmpty || count ≤ 0 then .ok []
  else if memoryLimit < row.length * count.toNat then .error .outOfMemory
  else .ok (List.replicate count.toNat row).flatten

/-- A text repeated; its length must be one that can be told. -/
def repeatedText (count : Int) (s : String) : Except Fault Value :=
  if 2 ^ (63 : Nat) ≤ count * s.length then .error .tooLarge
  else (fun cs => .text (String.ofList cs)) <$> repeated count s.toList

/-- The integer that a value repeats a row by. -/
def count? : Value → Option Int
  | .bool b => some (Datum.ofBool b)
  | .int n => some n
  | _ => none

/-- A row as a value, repeated. -/
def repeatedValue (v : Value) (count : Int) : Option (Except Fault Value) :=
  match v with
  | .list items => some (.list <$> repeated count items)
  | .tuple items => some (.tuple <$> repeated count items)
  | v => v.text?.map (repeatedText count)

/-- The operator on rows: two rows of one kind are put together, and a row is repeated. -/
def onRows (op : Operator) (l r : Value) : Option (Except Fault Value) :=
  match op, l, r with
  | add, .list xs, .list ys => some (.ok (.list (xs ++ ys)))
  | add, .tuple xs, .tuple ys => some (.ok (.tuple (xs ++ ys)))
  | add, l, r =>
    match l.text?, r.text? with
    | some s, some t => some (.ok (.text (s ++ t)))
    | _, _ => none
  | mul, l, r =>
    match count? r, count? l with
    | some n, none => repeatedValue l n
    | none, some n => repeatedValue r n
    | _, _ => none
  | _, _, _ => none

/-! ### Blocks -/

/-- The cells of two blocks, item by item, in their common shape. -/
def spread (b c : Block) (xs : List α) (ys : List β) : Except Fault (List Nat × List (α × β)) :=
  match Grid.joinShape b.shape c.shape with
  | none => .error .badValue
  | some shape => .ok (shape, (Grid.spread shape b.shape xs).zip (Grid.spread shape c.shape ys))

/-- The operator on blocks of numbers, within one type. -/
def onFloatBlocks (op : Operator) (type : FloatType) (b c : Block) : Except Fault Grid := do
  let (shape, pairs) ← spread b c (← b.floats) (← c.floats)
  return {
    type := if type = .half then .half else .double
    shape
    cells := pairs.map fun (x, y) => ⟨type, type.within op.onFloats x y⟩ }

/-- The operator on blocks of which one holds values of any kind. -/
def onObjectBlocks (op : Operator) (b c : Block) : Except Fault Grid := do
  let (shape, pairs) ← spread b c b.objects c.objects
  return { type := .boxed, shape, cells := ← pairs.mapM fun (v, w) => op.onObjects v w }

/-- The operator on two blocks. -/
def onBlocks (op : Operator) (b c : Block) : Except Fault Grid :=
  match b.type.join c.type with
  | .text => .error .wrongType
  | .object => if op = pow then .error .wrongType else op.onObjectBlocks b c
  | .half => op.onFloatBlocks (if op = pow then .double else .half) b c
  | _ => op.onFloatBlocks .double b c

/-! ### Series -/

/-- The operator on a series and something else, which come as blocks in the order of the operation.
The result must have the length of the series. A power may have several axes, and then it is a grid.
-/
def onSeriesBlock (op : Operator) (s : Series) (b c : Block) : Except Fault Value := do
  let result ← op.onBlocks b c
  if result.shape = [s.length] then
    return .series (s.withCells (result.type == .boxed) result.cells)
  else if op = pow && result.shape.length != 1 then return .grid result
  else throw .badValue

/-- The operator on two matched cells. -/
def onPair (op : Operator) (s t : Series) (pair : Series.Pair) : Except Fault (Int × Cell) := do
  let (label, a, b) := pair
  let side (k : Series) (c : Cell) := if k.boxed then c.toValue else Block.loose c
  if s.boxed || t.boxed then return (label, ← op.onObjects (side s a) (side t b))
  else return (label, .double (op.onFloats a.value b.value))

/-- The operator on two series. -/
def onSeries (op : Operator) (s t : Series) : Except Fault Value := do
  let boxed := s.boxed || t.boxed
  let pairs ← if op = pow then
      match s.spread? t with
      | none => throw .badValue
      | some pairs => if boxed then throw .wrongType else pure pairs
    else pure (s.matched t)
  return .series { name := s.jointName t, boxed, entries := ← pairs.mapM (op.onPair s t) }

/-! ### Sides -/

/-- One side of an operation item by item. -/
inductive Side where
  /-- A number. -/
  | number (n : Num)
  /-- A series. -/
  | series (s : Series)
  /-- Anything else. -/
  | block (b : Block)

/-- The block that a side is. A number that is neither a double nor a half does not tell a type. -/
def Side.toBlock : Side → Block
  | number n =>
    match n.floatType with
    | .plain => ⟨.truth, [], [n.toValue]⟩
    | .half => ⟨.half, [], [n.toValue]⟩
    | .double => ⟨.double, [], [n.toValue]⟩
  | series s => .ofSeries s
  | block b => b

/-- A value as one side of an operation item by item; the flag says whether lists take part. -/
def side (lists : Bool) (v : Value) : Except Fault Side :=
  match v with
  | .series s => .ok (.series s)
  | .list _ | .tuple _ => if lists then .block <$> Block.ofValue v else .error .wrongType
  | v =>
    match v.num? with
    | some n => .ok (.number n)
    | none => .block <$> Block.ofValue v

/-- Whether a value makes lists beside it take part. -/
def spreads (op : Operator) : Value → Bool
  | .grid _ | .series _ => true
  | .double _ | .half _ => op != mul
  | _ => false

/-- The operator item by item. -/
def onSides (op : Operator) (l r : Side) : Except Fault Value :=
  match l, r with
  | .number a, .number b => Num.toValue <$> op.onNumbers a b
  | .series s, .series t => op.onSeries s t
  | .series s, r => op.onSeriesBlock s (.ofSeries s) r.toBlock
  | l, .series t => op.onSeriesBlock t l.toBlock (.ofSeries t)
  | l, r => .grid <$> op.onBlocks l.toBlock r.toBlock

/-- Both sides of an operation; that one of them is not rectangular comes before any other fault. -/
def sides (left right : Except Fault Side) : Except Fault (Side × Side) :=
  match left, right with
  | .error .badValue, _ | _, .error .badValue => .error .badValue
  | left, right => return (← left, ← right)

/-- The operator on two values. -/
def onValues (op : Operator) (l r : Value) : Except Fault Value :=
  match op.onRows l r with
  | some result => result
  | none => do
    let (left, right) ←
      sides (side (op.isReal || op.spreads r) l) (side (op.isReal || op.spreads l) r)
    op.onSides left right

/-- The operator on two values, with a wrong type told by the names of the types. -/
def apply (op : Operator) (l r : Value) : Except Fault Value :=
  match op.onValues l r with
  | .error .wrongType => .error (.operandTypes op.text l.typeName r.typeName)
  | result => result

end Operator

/-- A value with an operator named by a text. -/
def applyOperator (op : String) (l r : Value) : Except Fault Value :=
  match Operator.ofText? op with
  | some operator => operator.apply l r
  | none => .error (.unknownOperator op)

/-! ### Signs -/

/-- A function on numbers, and on the floats of a grid or a series. -/
def Value.mapNumbers (onNumber : Num → Num) (onFloat : Float → Float) (v : Value) :
    Except Fault Value :=
  match v with
  | .grid g => .ok (.grid (g.map onFloat))
  | .series s => .ok (.series (s.map onFloat))
  | v =>
    match v.num? with
    | some n => .ok (onNumber n).toValue
    | none => .error .wrongType

/-- A value with a sign named by a text. -/
def applySign (op : String) (v : Value) : Except Fault Value :=
  let result :=
    if op = "-" then v.mapNumbers Num.negate (-·)
    else if op = "+" then v.mapNumbers id id
    else .error (.unknownSign op)
  match result with
  | .error .wrongType => .error (.operandType op v.typeName)
  | result => result

end ChartScript
