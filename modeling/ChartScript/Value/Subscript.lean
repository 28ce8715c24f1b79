import ChartScript.Value.Selector

/-!
# Subscripts

What a subscript picks out of a value (`applySubscript`). A position counts from the start, or from
the end if it is negative, and a float that is an integer is as good as one. A list of positions picks
a series out of a series and a grid out of a grid.

A truth value counts as a position in a text and in a list, is refused by a series, and adds an axis
to a grid; so does no value. A double is a grid without axes here.

A series is lenient about the positions in a list: floats lose what is behind their points, and texts
are read.
-/

namespace ChartScript

namespace Subscript

/-- A subscript with a float that is an integer made into one. -/
def normal : Value → Value
  | .float x =>
    if Number.isWhole x then ((Number.truncate? x).map Value.int).getD (.float x) else .float x
  | .double x =>
    if Number.isWhole x then ((Number.truncate? x).map Value.int).getD (.double x) else .double x
  | v => v

/-- The position that a subscript is for a text or a list. -/
def position : Value → Except Fault Int
  | .int n => .ok n
  | .bool b => .ok (Datum.ofBool b)
  | _ => .error .wrongType

/-! ### Series -/

/-- A float without what is behind its point. What has no place in 64 bits is the least integer that
has one. -/
def truncated (x : Float) : Int :=
  match Number.truncate? x with
  | some n => if CellType.ofInt n = .integer then n else CellType.leastInteger
  | none => CellType.leastInteger

/-- An integer, which must have a place in 64 bits. -/
def narrow (n : Int) : Except Fault Int :=
  if CellType.ofInt n = .integer then .ok n else .error .tooLarge

/-- The position that a cell of a block of a type stands for. Among texts an integer is its digits,
and every other number is a text that spells no integer. -/
def positionIn (type : CellType) (v : Value) : Except Fault Int :=
  match type with
  | .text =>
    match v with
    | .int n => narrow n
    | v => if v.text?.isSome then do narrow (← v.toInt) else .error .badValue
  | .object => do narrow (← v.toInt)
  | .half | .double => do return truncated (← (← Block.number v).toFloat)
  | _ => .ok (Selector.signed v)

/-- Whether a value is a truth value or missing. -/
def isFlagOrMissing : Value → Bool
  | .bool _ | .null => true
  | .float x | .double x => x.isNaN
  | _ => false

/-- The entries of a series in the rows of a mask that hold something true, once for every such
place. -/
def masked (s : Series) (mask : Block) : Except Fault Value :=
  match mask.shape with
  | count :: rest =>
    if count = s.length then do
      let rows := (Selector.marked mask.cells).map fun n => ((n / Grid.volume rest : Nat) : Int)
      return .series { s with entries := ← rows.mapM (item s.entries) }
    else .error .outOfRange
  | [] => .error .outOfRange

/-- The entries of a series at the positions of a block. A truth value is no position, and values of
which none is more than that, or is missing, are neither a mask nor positions. -/
def pick (s : Series) (b : Block) : Except Fault Value :=
  if b.type = .truth then masked s b
  else if b.type = .object && !b.cells.isEmpty && b.cells.all isFlagOrMissing then .error .badValue
  else do
    let positions ← b.cells.mapM (positionIn b.type)
    let entries ← positions.mapM (item s.entries)
    if b.shape.length = 1 then return .series { s with entries } else throw .badValue

/-- What a position picks out of a series. -/
def entryAt (s : Series) (position : Int) : Except Fault Value := do
  return (← item s.entries position).2.toValue

/-- What the only part of a subscript picks out of a series. -/
def ofOnlyPart (s : Series) : Value → Except Fault Value
  | .int n => if CellType.ofInt n = .unsigned then .error .tooLarge else entryAt s n
  | .tuple _ => .error .tooManyParts
  | v =>
    if v.isSequence then do
      let b ← Block.ofValue v
      if b.type = .text || b.type = .object then throw .outOfRange
      pick s b
    else .error .badValue

/-- What the parts of a subscript pick out of a series. -/
def ofParts (s : Series) : List Value → Except Fault Value
  | [] => .ok (.series s)
  | [part] => ofOnlyPart s part
  | _ => .error .tooManyParts

/-- What a subscript picks out of a series. -/
def ofSeries (s : Series) : Value → Except Fault Value
  | .int n => entryAt s n
  | .tuple parts =>
    if parts.any fun part => part matches .dict _ then .error .wrongType else ofParts s parts
  | v => if v.isSequence then do pick s (← Block.ofValue v) else .error .wrongType

/-! ### Dictionaries -/

mutual

/-- Whether a value can be a key of a dictionary. -/
def isKey : Value → Bool
  | .list _ | .dict _ | .series _ | .grid _ | .live _ => false
  | .order _ | .trade _ | .position _ | .commission _ => false
  | .tuple items => areKeys items
  | .unresolvedCall _ args => areKeys args
  | _ => true

/-- Whether several values can all be keys of a dictionary. -/
def areKeys : List Value → Bool
  | [] => true
  | v :: rest => isKey v && areKeys rest

end

/-- What a subscript picks out of a dictionary. -/
def ofDict (entries : List (String × Value)) (key : Value) : Except Fault Value :=
  match key.text? with
  | some s =>
    match Datum.find? s entries with
    | some v => .ok v
    | none => .error (.noKey (some s))
  | none => .error (if isKey key then .noKey none else .wrongType)

end Subscript

/-- What a subscript picks out of a value. -/
def applySubscript (target subscript : Value) : Except Fault Value :=
  let index := Subscript.normal subscript
  match target with
  | .series s => Subscript.ofSeries s index
  | .grid g => Subscript.ofGrid g index
  | .double x => Subscript.ofSingle .double (.double x) index
  | .half x => Subscript.ofSingle .half ⟨.half, x⟩ index
  | .dict entries => Subscript.ofDict entries index
  | .list items | .tuple items => do Subscript.item items (← Subscript.position index)
  | v =>
    match v.text? with
    | some s => do
      let c ← Subscript.item s.toList (← Subscript.position index)
      return .text (String.singleton c)
    | none => .error .wrongType

end ChartScript
