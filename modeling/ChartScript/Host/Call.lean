import ChartScript.Host.Environment
import ChartScript.Host.Mathematics
import ChartScript.Host.Technical
import ChartScript.Text.Crc32

/-!
# Calls of host functions

What happens when a script calls a function of the host (`HostFunction.call`). Most functions only
compute. Three of them leave something behind in the environment: an input is noted under its title,
a plot is added to the plots, and a function of `strategy` trades.

Functions that compute look at the parts of the strategy among their arguments as they are at the
time of the call. A plot, an input and a strategy keep them as they come.
-/

namespace ChartScript

/-! ### Other symbols -/

/-- The greatest price offset of another symbol. -/
def securityRange : Float := 50.0

/-- The price offset of a symbol and a timeframe: the checksum of the two as a share of the greatest
offset. -/
def securityOffset (symbol timeframe : Value) : Except Fault Float := do
  let name := String.ofList ((← symbol.displayed) ++ ':' :: (← timeframe.displayed))
  return Number.ofRatio false (Text.crc32 name).toNat 0xFFFFFFFF * securityRange

/-- What the series of another symbol takes. -/
def securitySignature : Signature where
  params := [("symbol", none), ("timeframe", none), ("expr", some .null)]
  takesRest := true
  takesOptions := true
  isMember := true

/-- What the series of another symbol is made of: a source, or else what `close` is bound to. -/
def securityBase (env : Env) (expr : Value) : Except Fault Value := do
  match expr, ← expr.toSeries? with
  | .series s, _ | _, some s => return .series s
  | _, none =>
    match env.get? "close" with
    | some v => return v.opened env.engine
    | none => throw (.noKey (some "close"))

/-- The series of another symbol. -/
def security (env : Env) (positional : List Value) (named : Options) : Except Fault Value := do
  match (← securitySignature.bind positional named).args with
  | [symbol, timeframe, expr] => do
    let base ← securityBase env expr
    Operator.add.onValues base (.float (← securityOffset symbol timeframe))
  | _ => throw .wrongType

/-! ### Colours -/

/-- What the colour of three components takes. -/
def rgbSignature : Signature where
  params := [("r", none), ("g", none), ("b", none)]
  takesRest := true
  takesOptions := true
  isMember := true

/-- The colour of three components. -/
def rgb (positional : List Value) (named : Options) : Except Fault Value := do
  let components ← (← rgbSignature.bind positional named).args.mapM Value.displayed
  return .text (String.ofList ("rgb(".toList ++ Datum.joined [','] components ++ [')']))

/-! ### Inputs and plots -/

/-- A title, if there is one: the option of that name, or else the first further argument, if it is a
text, or the entry of that name in it, if it is a dictionary. -/
def titleOf (rest : List Value) (options : Options) : Value :=
  match Datum.find? "title" options, rest with
  | none, first :: _ | some .null, first :: _ =>
    match first with
    | .dict entries => (Datum.find? "title" entries).getD .null
    | first => if first.text?.isSome then first else .null
  | none, [] | some .null, [] => .null
  | some title, _ => title

/-- What an input takes. -/
def inputSignature : Signature where
  params := [("defval", some .null)]
  takesRest := true
  takesOptions := true
  isMember := true

/-- What a plot takes. -/
def plotSignature : Signature where
  params := [("series", some .null)]
  takesRest := true
  takesOptions := true
  isMember := false

/-- Gives the default of an input, and notes it under the title. -/
def input (positional : List Value) (named : Options) : Run Value := do
  let bound ← ofExcept (inputSignature.bind positional named)
  match bound.args with
  | [default] => do
    match titleOf bound.rest bound.options with
    | .null => return default
    | title => do
      let key ← ofExcept (title.settled (← get).engine).displayed
      modify fun env => { env with inputs := Datum.bind (String.ofList key) default env.inputs }
      return default
  | _ => throw .wrongType

/-- Adds a plot. -/
def plot (positional : List Value) (named : Options) : Run Value := do
  let bound ← ofExcept (plotSignature.bind positional named)
  let plot : Plot :=
    { args := bound.args ++ bound.rest
      title := titleOf bound.rest bound.options
      options := bound.options }
  modify fun env => { env with plots := env.plots ++ [plot] }
  return .null

/-! ### All functions -/

/-- What a function takes that gives its only argument back. -/
def echoSignature : Signature where
  params := [("value", none)]
  takesRest := false
  takesOptions := false
  isMember := false

/-- Gives the only argument back. -/
def echo (positional : List Value) (named : Options) : Except Fault Value := do
  match (← echoSignature.bind positional named).args with
  | [v] => return v
  | _ => throw .wrongType

/-- Gives the arguments back. -/
def gather (positional : List Value) (named : Options) : Value :=
  .dict [("args", .list positional), ("kwargs", .dict named)]

/-- Does a computation on the arguments as they are now. -/
def computed (f : List Value → Options → Except Fault Value) (positional : List Value)
    (named : Options) : Run Value := do
  let e := (← get).engine
  ofExcept (f (Value.settledAll e positional) (Value.settledEntries e named))

/-- Calls a function of the host. -/
def HostFunction.call (f : HostFunction) (positional : List Value) (named : Options) : Run Value :=
  match f with
  | .ta f => computed f.call positional named
  | .math f => computed f.call positional named
  | .rgb => computed ChartScript.rgb positional named
  | .security => do computed (ChartScript.security (← get)) positional named
  | .input => ChartScript.input positional named
  | .plot => ChartScript.plot positional named
  | .strategy f => do withEngine (Engine.call f (← get).latestPrice positional named)
  | .gather => return ChartScript.gather positional named
  | .echo => ofExcept (ChartScript.echo positional named)

end ChartScript
