import ChartScript.Value.Grid

/-!
# Order among values

Which of two values is the greater. Numbers are compared as numbers, texts by their characters, and
lists item by item up to the first difference. Nothing else has an order, and a series cannot be
compared at all, since its items may go either way.
-/

namespace ChartScript

namespace Value

/-- The fault of a comparison of a series or a grid: the other side is of a wrong type, or the result
has no single truth. A series can be compared with no value, of which nothing is less. -/
def rowFault (row other : Value) : Fault :=
  match row, other with
  | series _, null => .badValue
  | _, series _ | _, grid _ | _, list _ | _, tuple _ => .badValue
  | _, v => if v.num?.isSome then .badValue else .wrongType

/-- Whether a value is a series or a grid. -/
def isRow : Value → Bool
  | series _ | grid _ => true
  | _ => false

/-- The number that a value is, or that is the only cell of a grid. -/
def soleNumber? : Value → Option Num
  | grid g =>
    match g.cells with
    | [cell] => some (.ofCell cell)
    | _ => none
  | v => v.num?

mutual

/-- Whether two values are the same in a comparison of lists. -/
def same : Value → Value → Except Fault Bool
  | null, null => .ok true
  | list xs, list ys | tuple xs, tuple ys => sameAll xs ys
  | v, w =>
    match v.num?, w.num?, v.text?, w.text? with
    | some m, some n, _, _ => do
      let (m, n) ← m.levelled n
      return m.same n
    | _, _, some s, some t => .ok (s == t)
    | _, _, _, _ => if v.isRow || w.isRow then .error .badValue else .ok false

/-- Whether two lists are the same item by item. -/
def sameAll : List Value → List Value → Except Fault Bool
  | [], [] => .ok true
  | x :: xs, y :: ys => do
    if ← same x y then sameAll xs ys else return false
  | _, _ => .ok false

end

mutual

/-- Whether a value is less than another. -/
def lt : Value → Value → Except Fault Bool
  | list xs, list ys | tuple xs, tuple ys => ltAll xs ys
  | v, w =>
    match v.soleNumber?, w.soleNumber?, v.text?, w.text? with
    | some m, some n, _, _ => do
      let (m, n) ← m.levelled n
      return m.lt n
    | _, _, some s, some t => .ok (decide (s < t))
    | _, _, _, _ =>
      .error (if v.isRow then rowFault v w else if w.isRow then rowFault w v else .wrongType)

/-- Whether a list comes before another: the first items that differ decide, or else the length. -/
def ltAll : List Value → List Value → Except Fault Bool
  | [], ys => .ok (!ys.isEmpty)
  | _ :: _, [] => .ok false
  | x :: xs, y :: ys => do
    if ← same x y then ltAll xs ys else lt x y

end

/-- The first of several values that none of the others beats. -/
def best (beats : Value → Value → Except Fault Bool) : List Value → Except Fault Value
  | [] => .error .badValue
  | first :: rest => rest.foldlM (fun best v => do return if ← beats v best then v else best) first

/-- The greatest of several values. -/
def greatest : List Value → Except Fault Value := best fun v best => best.lt v

/-- The least of several values. -/
def least : List Value → Except Fault Value := best fun v best => v.lt best

end Value

end ChartScript
