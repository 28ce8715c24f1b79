import ChartScript.Config.Basic
import ChartScript.Eval.Evaluate
import ChartScript.Syntax.Star

/-!
# Running scripts

A run starts in a fresh environment (`Env.fresh`): a series of closing prices that rises by a fixed
step, two series beside it, and the namespaces of the host. Statements are evaluated in order; every
statement binds its name, except a bare call (`Program.run`). A run ends with the first fault.

A program whose calls go through the star namespace needs that namespace bound first
(`Env.withStar`).
-/

namespace ChartScript

/-! ### The fresh environment -/

/-- The closing prices of a run: a number of them, the first one and the step. -/
def closingPrices (length : Int) (base step : Float) : Series :=
  .ofValues ((List.range length.toNat).map fun place => base + step * Float.ofNat place)

/-- The names that are bound at the start of a run. -/
def hostBindings (close : Series) : List (String × Value) :=
  [("close", .series (close.named "close")),
    ("high", .series ((close.map (· + 1.0)).named "high")),
    ("low", .series ((close.map (· - 1.0)).named "low")),
    ("plot", .function .plot),
    ("ta", .space .ta),
    ("math", .space .math),
    ("color", .space .color),
    ("input", .space .input),
    ("request", .space .request),
    ("strategy", .space .strategy)]

/-- A setting as a value. -/
def Value.ofSetting (d : Setting) : Value := .ofDatum d.toDatum

/-- The budget of a run: the given one, or else that of the configuration, if there is one. -/
def budgetValue (opLimit : Value) (config : Option Config) : Value :=
  match opLimit, config with
  | .null, some c => .ofSetting (c.get "runtime.op_limit" .null)
  | opLimit, _ => opLimit

/-- What a dotted key leads to, as a value. -/
def Config.value (c : Config) (key : String) (default : Setting) : Value :=
  .ofSetting (c.get key default)

/-- The environment at the start of a run, where the methods of plain values come to the given. -/
def Env.fresh (methods : PlainMethods) (opLimit : Value) (config : Option Config) :
    Except Fault Env := do
  let c := config.getD .standard
  let length ← (c.value "runtime.series_length" (.int 200)).toInt
  let base ← (c.value "runtime.base_price" (.float 100.0)).toFloat
  let step ← (c.value "runtime.price_step" (.float 0.5)).toFloat
  let commission ← (c.value "strategy.commission_percent" (.float 0.0)).toFloat
  let defaultQty ← (c.value "strategy.default_qty" (.int 1)).toInt
  let env := Env.ofBindings (hostBindings (closingPrices length base step))
    (.ofValue (budgetValue opLimit config))
  return { env with engine := Engine.fresh commission (.int defaultQty), methods }

/-- The star namespace: what its names are bound to. -/
def Env.starNamespace (env : Env) : Value :=
  .dict (Syntax.starNames.filterMap fun name => (env.get? name).map fun v => (name, v))

/-- The environment with the star namespace bound. -/
def Env.withStar (env : Env) : Env := env.bind "star" env.starNamespace

/-! ### Statements -/

/-- Binds the value of a statement, unless the statement is a bare call. -/
def Assignment.store (a : Assignment) (v : Value) : Run Unit :=
  if a.isCall then return else modify (·.bind a.target v)

/-- Runs a statement. -/
def Assignment.run (a : Assignment) : Run Unit := do a.store (← a.expr.evaluate)

/-- Runs several statements in order. -/
def Assignment.runAll : List Assignment → Run Unit
  | [] => return
  | a :: rest => do
    a.run
    Assignment.runAll rest

/-- Runs a program. -/
def Program.run (p : Program) : Run Unit := Assignment.runAll p.assignments

end ChartScript
