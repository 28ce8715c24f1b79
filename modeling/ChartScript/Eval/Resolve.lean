import ChartScript.Host.Environment
import ChartScript.Text.Split
import ChartScript.Value.Method

/-!
# Names

What a dotted name stands for (`Env.resolve?`). The first segment is looked up among the bindings and
each further one in what was found so far: an entry of a dictionary, a member of a namespace, a field
of a record, or what any other value has (`Value.ownMember?`). A name does not resolve if one of its
segments does not, and a segment that is empty or starts with an underscore never does.

A name can lead into an object of a library. What it stands for there is not told
(`Env.looksIntoLibrary`).
-/

namespace ChartScript

/-- A member of a namespace, of which the strategy shows its state. -/
def Namespace.member? (e : Engine) (name : String) : Namespace → Option Value
  | .ta => (TaFunction.table.lookup name).map fun f => .function (.ta f)
  | .math => (MathFunction.table.lookup name).map fun f => .function (.math f)
  | .color =>
    if name = "rgb" then some (.function .rgb) else (namedColors.lookup name).map Value.text
  | .input => if inputNames.contains name then some (.function .input) else none
  | .request => if name = "security" then some (.function .security) else none
  | .strategy => e.attribute? name

/-- A field of a position. -/
def Position.field? (name : String) (p : Position) : Option Value :=
  match name with
  | "size" => some (.int p.size)
  | "avg_price" => some (.float p.average)
  | _ => none

/-- A field of an order. The time at which it was filled is an object of a library. -/
def Order.field? (name : String) (o : Order) : Option Value :=
  match name with
  | "order_id" => some (.text o.id)
  | "action" => some (.text o.side.name)
  | "requested_qty" => some (.float o.requested)
  | "filled_qty" => some (.int o.filled)
  | "price" => some (.float o.price)
  | "slippage" => some (.float o.slippage)
  | "timestamp" => some .foreign
  | _ => none

/-- A field of a trade. -/
def Trade.field? (name : String) (t : Trade) : Option Value :=
  match name with
  | "side" => some (.text t.side.name)
  | "qty" => some (.int t.qty)
  | "price" => some (.float t.price)
  | "order_id" => some (.text t.orderId)
  | "commission" => some (.float t.commission)
  | "pnl" => some ((t.pnl.map Value.float).getD .null)
  | _ => none

/-- What a segment of a name means in a value. -/
def Value.member? (e : Engine) (name : String) : Value → Option Value
  | .dict entries => Datum.find? name entries
  | .space n => n.member? e name
  | .live .state => e.position.field? name
  | .position p => p.field? name
  | .order o => o.field? name
  | .trade t => t.field? name
  | .commission percent => if name = "percent" then some (.float percent) else none
  | .unresolvedCall callee args =>
    match name with
    | "callee" => some (.text callee)
    | "args" => some (.tuple args)
    | name => (Value.unresolvedCall callee args).ownMember? name
  | v => v.ownMember? name

/-- Whether a segment is one that never resolves. -/
def isHidden (segment : String) : Bool :=
  match segment.toList with
  | [] => true
  | c :: _ => c == '_'

/-- Follows the segments of a name from a value. -/
def Value.follow? (e : Engine) : List String → Value → Option Value
  | [], v => some v
  | segment :: rest, v =>
    if isHidden segment then none else (v.member? e segment).bind (follow? e rest)

/-- What a dotted name stands for, starting from a value. -/
def Value.resolve? (e : Engine) (root : Value) (path : String) : Option Value :=
  root.follow? e (Text.pathSegments path)

/-- What a dotted name stands for in an environment. -/
def Env.resolve? (env : Env) (path : String) : Option Value :=
  Value.resolve? env.engine (.dict env.bindings) path

/-- Whether a dotted name leads into an object of a library. -/
def Env.looksIntoLibrary (env : Env) (path : String) : Bool :=
  match Text.pathSegments path with
  | [] | [_] => false
  | _ => env.resolve? path matches some .foreign

end ChartScript
