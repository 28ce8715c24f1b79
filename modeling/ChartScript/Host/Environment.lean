import ChartScript.Strategy.Engine

/-!
# Environments

What a script runs in: the names it can use, what its host functions have recorded, the budget of
operations and the strategy. A computation in an environment may fail (`Run`), and keeps what it has
done up to there.

The count of operations goes up before the budget is looked at, so that a computation that exceeds
it shows one operation more than it was given.

A script can also call the methods of plain values, such as texts and lists. What those come to that only
compute something is given with the environment (`PlainMethods`), since it is a matter of the language
that the host is written in. A script strays from what the host offers if it calls one of the others,
which change a list or fill in a template, or if it looks into an object of a library, such as a series.
How often it has strayed is counted (`stray`), and nothing ever looks at that count. It is there to say
of a run that it has not.
-/

namespace ChartScript

/-- How many operations are allowed. -/
inductive Budget where
  /-- Any number. -/
  | unlimited
  /-- At most a number, which is shown as a text. -/
  | atMost (limit : Num) (text : String)
  /-- Nothing that a count can be compared with. -/
  | incomparable (fault : Fault)

/-- The budget that a value sets; no value sets none. -/
def Budget.ofValue : Value → Budget
  | .null => .unlimited
  | .series _ => .incomparable .badValue
  | v =>
    match v.num? with
    | some n => .atMost n (String.ofList v.display)
    | none => .incomparable .wrongType

/-- Why the budget does not allow a count of operations, if it does not. -/
def Budget.objection? (count : Nat) : Budget → Option Fault
  | .unlimited => none
  | .atMost limit text => if limit.lt (.int count) then some (.overBudget text) else none
  | .incomparable fault => some fault

/-- A plot that a script has asked for. -/
structure Plot where
  /-- What is plotted, and further arguments. -/
  args : List Value
  /-- The title. -/
  title : Value
  /-- The named arguments. -/
  options : Options
deriving Inhabited

/-- What the methods of plain values come to that only compute something: in a state of the strategy, for
a value, the name of a method, and its arguments by place and by name. -/
abbrev PlainMethods := Engine → Value → String → List Value → Options → Except Fault Value

/-- Methods of which nothing is told. -/
def PlainMethods.untold : PlainMethods := fun _ _ _ _ _ => .error .untold

/-- The state of a run. -/
structure Env where
  /-- The names and what they are bound to. -/
  bindings : List (String × Value)
  /-- The plots, in order. -/
  plots : List Plot
  /-- The inputs by title. -/
  inputs : Options
  /-- The number of operations so far. -/
  opCount : Nat
  /-- The budget of operations. -/
  budget : Budget
  /-- The strategy. -/
  engine : Engine
  /-- The methods of plain values. -/
  methods : PlainMethods
  /-- How often the script has strayed from what the host offers. -/
  strays : Nat

/-- A computation in an environment. -/
abbrev Run := ExceptT Fault (StateM Env)

namespace Env

/-- An environment with some names bound, and nothing told of the methods of plain values. -/
def ofBindings (bindings : List (String × Value)) (budget : Budget) : Env where
  bindings
  plots := []
  inputs := []
  opCount := 0
  budget
  engine := Engine.fresh 0.0 (.int 1)
  methods := PlainMethods.untold
  strays := 0

/-- What a name is bound to. -/
def get? (env : Env) (name : String) : Option Value := Datum.find? name env.bindings

/-- Binds a name. -/
def bind (name : String) (v : Value) (env : Env) : Env :=
  { env with bindings := Datum.bind name v env.bindings }

/-- A name reads back as what it was bound to. -/
@[simp] theorem get?_bind_self (name : String) (v : Value) (env : Env) :
    (env.bind name v).get? name = some v := by
  simp [get?, bind]

/-- Binding a name leaves every other name as it was. -/
theorem get?_bind_of_ne {name other : String} (ne : other ≠ name) (v : Value) (env : Env) :
    (env.bind name v).get? other = env.get? other := by
  simp [get?, bind, Datum.find?_bind_of_ne ne]

/-- The latest price: the last value of the series that `close` is bound to. -/
def latestPrice (env : Env) : Except Fault Float :=
  match env.get? "close" with
  | some (.series s) => .ok (s.last?.getD missing)
  | some v => v.toFloat
  | none => .error .wrongType

end Env

/-- Counts one operation against the budget. -/
def tick : Run Unit := do
  modify fun env => { env with opCount := env.opCount + 1 }
  let env ← get
  match env.budget.objection? env.opCount with
  | some fault => throw fault
  | none => return

/-- Notes that the script strays. -/
def stray : Run Unit := modify fun env => { env with strays := env.strays + 1 }

/-- A run, begun in an environment, does not stray. -/
def Run.Stays (run : Run α) (env : Env) : Prop := (run.run env).2.strays = env.strays

/-- Does something with the strategy. -/
def withEngine (action : Trading α) : Run α := do
  let env ← get
  let (result, engine) := action.run env.engine
  set { env with engine }
  match result with
  | .ok a => return a
  | .error fault => throw fault

/-- Lets a plain computation fail. -/
def ofExcept (result : Except Fault α) : Run α :=
  match result with
  | .ok a => return a
  | .error fault => throw fault

end ChartScript
