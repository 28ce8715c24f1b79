import ChartScript.Host.Name
import ChartScript.Strategy.Record
import ChartScript.Value.Fault

/-!
# Values

What an expression of the script language evaluates to. Numbers come in four types. An integer has
any size; a *plain* float comes from a literal; division, powers and everything read out of a series
give a *double*, which is a float that combines with lists item by item; a *half* is a double of low
precision that only a square root of a truth value gives.

A name that is bound to nothing stands for itself (`unresolved`), and a call of something that is no
function stays a call (`unresolvedCall`), so that a script need not be complete to be run.

The lists of a strategy are not copied when a script binds them. A value that names one of them
(`live`) shows what it holds at the time it is looked at.

Plain values have methods like any object of the language that the host is written in, and a script can
hold on to one (`method`). Where a name leads into an object of a library, such as a series or the time
of an order, there is a value of which nothing is told (`foreign`).
-/

namespace ChartScript

/-- What a grid holds. -/
inductive GridType where
  /-- Halves. -/
  | half
  /-- Doubles. -/
  | double
  /-- Floats that keep a type of their own, each for itself. -/
  | boxed
deriving DecidableEq, Inhabited

/-- A rectangular arrangement of floats. -/
structure Grid where
  /-- What the cells are. -/
  type : GridType
  /-- The number of places along each axis. -/
  shape : List Nat
  /-- The cells, the last axis running fastest. -/
  cells : List Cell
deriving Inhabited

/-- The parts of a strategy that a script can hold on to. -/
inductive EnginePart where
  /-- The position. -/
  | state
  /-- The filled orders. -/
  | orders
  /-- The trades. -/
  | trades
  /-- The entries. -/
  | entries
  /-- The exits. -/
  | exits
deriving DecidableEq, Inhabited

/-- A value. -/
inductive Value where
  /-- No value. -/
  | null
  /-- A truth value. -/
  | bool (b : Bool)
  /-- An integer. -/
  | int (n : Int)
  /-- A plain float. -/
  | float (x : Float)
  /-- A double. -/
  | double (x : Float)
  /-- A half. -/
  | half (x : Float)
  /-- A text. -/
  | text (s : String)
  /-- A name that is bound to nothing. -/
  | unresolved (name : String)
  /-- The name half of a named argument. -/
  | keyword (name : String)
  /-- A call of something that is no function. -/
  | unresolvedCall (callee : String) (args : List Value)
  /-- A list. -/
  | list (items : List Value)
  /-- A tuple. -/
  | tuple (items : List Value)
  /-- A dictionary: entries with different keys, in order. -/
  | dict (entries : List (String × Value))
  /-- A series. -/
  | series (s : Series)
  /-- A grid. -/
  | grid (g : Grid)
  /-- A function of the host. -/
  | function (f : HostFunction)
  /-- A namespace of the host. -/
  | space (n : Namespace)
  /-- A part of the strategy, as it is now. -/
  | live (part : EnginePart)
  /-- A filled order. -/
  | order (o : Order)
  /-- A trade. -/
  | trade (t : Trade)
  /-- A position at some time. -/
  | position (p : Position)
  /-- The commission, as a fraction of the traded value. -/
  | commission (percent : Float)
  /-- A method of a value. -/
  | method (owner : Value) (name : String)
  /-- Something of a library. -/
  | foreign
deriving Inhabited

/-- What can be called. -/
inductive Callable where
  /-- A function of the host. -/
  | host (f : HostFunction)
  /-- A method of a value. -/
  | method (owner : Value) (name : String)
  /-- Something of a library. -/
  | foreign
deriving Inhabited

namespace Value

/-- The value that a datum is. -/
def ofDatum : Datum → Value
  | .null => null
  | .bool b => bool b
  | .int n => int n
  | .float x => float x
  | .text s => text s
  | .list items => list (ofData items)
  | .dict entries => dict (ofEntries entries)
where
  /-- The values that several data are. -/
  ofData : List Datum → List Value
    | [] => []
    | d :: rest => ofDatum d :: ofData rest
  /-- The values of the entries of a dictionary. -/
  ofEntries : List (String × Datum) → List (String × Value)
    | [] => []
    | (key, d) :: rest => (key, ofDatum d) :: ofEntries rest

/-- The text that a value is; names count as texts. -/
def text? : Value → Option String
  | text s | unresolved s | keyword s => some s
  | _ => none

/-- Whether a value is itself a row of values. -/
def isSequence : Value → Bool
  | list _ | tuple _ | series _ | grid _ => true
  | _ => false

/-- The name of the type of a value. -/
def typeName : Value → String
  | null => "NoneType"
  | bool _ => "bool"
  | int _ => "int"
  | float _ => "float"
  | double _ => "float64"
  | half _ => "float16"
  | text _ => "str"
  | unresolved _ => "Unresolved"
  | keyword _ => "Keyword"
  | unresolvedCall _ _ => "UnresolvedCall"
  | list _ => "list"
  | tuple _ => "tuple"
  | dict _ => "dict"
  | series _ => "Series"
  | grid _ => "ndarray"
  | function f => if f.isMember then "method" else "function"
  | space .ta => "TechnicalAnalysis"
  | space .math => "MathNamespace"
  | space .color => "ColorNamespace"
  | space .input => "InputNamespace"
  | space .request => "RequestNamespace"
  | space .strategy => "StrategyEngine"
  | live .state | position _ => "Position"
  | live _ => "list"
  | order _ => "Order"
  | trade _ => "Trade"
  | commission _ => "Commission"
  | method (unresolvedCall _ _) _ => "method"
  | method _ _ => "builtin_function_or_method"
  | foreign => "object"

/-- What a value is when it is called. -/
def function? : Value → Option Callable
  | function f => some (.host f)
  | space .input => some (.host .input)
  | method owner name => some (.method owner name)
  | foreign => some .foreign
  | _ => none

/-- Whether a value counts as true. A series and a grid of several cells do not say. -/
def truth : Value → Except Fault Bool
  | null => .ok false
  | bool b => .ok b
  | int n => .ok (n != 0)
  | float x | double x | half x => .ok (x != 0.0)
  | text s | unresolved s | keyword s => .ok (s != "")
  | list items | tuple items => .ok (!items.isEmpty)
  | dict entries => .ok (!entries.isEmpty)
  | series _ => .error .badValue
  | grid g =>
    match g.cells with
    | [cell] => .ok (cell.value != 0.0)
    | _ => .error .badValue
  | _ => .ok true

end Value

end ChartScript
