import ChartScript.Series.Indicator

/-!
# What the host offers, by name

The functions and the namespaces that a script can reach. What they do is told elsewhere; as values
they are no more than their names.
-/

namespace ChartScript

/-- The functions of the `ta` namespace. -/
inductive TaFunction where
  /-- An indicator over a source and a length. -/
  | indicator (i : Indicator)
  /-- A crossing of two sources. -/
  | crossing (c : Crossing)
  /-- The mean of numbers, or the indicator of a source. -/
  | avg
  /-- The greatest of numbers, or the indicator of a source. -/
  | max
  /-- The least of numbers, or the indicator of a source. -/
  | min
deriving DecidableEq, Inhabited

/-- The functions of the `math` namespace. -/
inductive MathFunction where
  /-- The mean. -/
  | avg
  /-- The magnitude. -/
  | abs
  /-- The greatest. -/
  | max
  /-- The least. -/
  | min
  /-- The square root. -/
  | sqrt
  /-- A power. -/
  | pow
  /-- Rounding. -/
  | round
deriving DecidableEq, Inhabited

/-- The functions of the `strategy` namespace. -/
inductive StrategyFunction where
  /-- Enters a position. -/
  | entry
  /-- Leaves the position. -/
  | exit
  /-- Leaves the position under a fixed name. -/
  | closeAll
  /-- Fills an order. -/
  | order
  /-- Shows the position. -/
  | position
  /-- Shows profit and loss. -/
  | pnl
  /-- Shows the statistics. -/
  | summary
  /-- Shows the latest price. -/
  | priceSource
deriving DecidableEq, Inhabited

/-- The functions that a script can call. -/
inductive HostFunction where
  /-- A function of `ta`. -/
  | ta (f : TaFunction)
  /-- A function of `math`. -/
  | math (f : MathFunction)
  /-- The colour of three components. -/
  | rgb
  /-- An input of the script. -/
  | input
  /-- The series of another symbol. -/
  | security
  /-- A plot. -/
  | plot
  /-- A function of `strategy`. -/
  | strategy (f : StrategyFunction)
  /-- Gives its arguments back, positional and named. -/
  | gather
  /-- Gives its only argument back. -/
  | echo
deriving DecidableEq, Inhabited

/-- The namespaces of the host. -/
inductive Namespace where
  /-- Indicators. -/
  | ta
  /-- Mathematics. -/
  | math
  /-- Colours. -/
  | color
  /-- Inputs; it can be called itself. -/
  | input
  /-- Other symbols. -/
  | request
  /-- Trading. -/
  | strategy
deriving DecidableEq, Inhabited

/-- The functions of `ta` and their names. -/
def TaFunction.table : List (String × TaFunction) :=
  [("sma", .indicator .sma), ("ema", .indicator .ema), ("wma", .indicator .wma),
   ("rma", .indicator .rma), ("stdev", .indicator .stdev), ("highest", .indicator .highest),
   ("lowest", .indicator .lowest), ("sum", .indicator .sum), ("rsi", .indicator .rsi),
   ("change", .indicator .change), ("crossover", .crossing .upward),
   ("crossunder", .crossing .downward), ("avg", .avg), ("max", .max), ("min", .min),
   ("ma", .indicator .sma)]

/-- The functions of `math` and their names. -/
def MathFunction.table : List (String × MathFunction) :=
  [("avg", .avg), ("abs", .abs), ("max", .max), ("min", .min), ("sqrt", .sqrt), ("pow", .pow),
   ("round", .round)]

/-- The functions of `strategy` and their names. -/
def StrategyFunction.table : List (String × StrategyFunction) :=
  [("entry", .entry), ("exit", .exit), ("close_all", .closeAll), ("order", .order),
   ("position", .position), ("pnl", .pnl), ("summary", .summary), ("price_source", .priceSource)]

/-- The names under which an input can be asked for. -/
def inputNames : List String := ["int", "float", "bool", "string", "source"]

/-- The colours that have a name. -/
def namedColors : List (String × String) :=
  [("red", "rgb(255,0,0)"), ("green", "rgb(0,128,0)"), ("blue", "rgb(0,0,255)"),
   ("white", "rgb(255,255,255)"), ("black", "rgb(0,0,0)")]

/-- Whether a function belongs to an object of the host, and not to a script or its embedder. -/
def HostFunction.isMember : HostFunction → Bool
  | .plot | .gather | .echo | .strategy .priceSource => false
  | _ => true

end ChartScript
