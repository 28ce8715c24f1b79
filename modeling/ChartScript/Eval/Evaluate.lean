import ChartScript.Eval.Method
import ChartScript.Syntax.Node

/-!
# Evaluation

The value of an expression in an environment (`Node.evaluate`). Every node counts as one operation,
and is counted before anything in it is evaluated; operands and arguments are evaluated from left to
right.

An expression is followed down to a number of levels (`levelLimit`), except that a chain of operators
that leans to the left, such as `a + b - c + d`, has one level however long it is. Its nodes are
counted from the outermost to the innermost, then its first operand is evaluated, and then the links
are applied one after the other. A power does not take part in a chain.
-/

namespace ChartScript

/-- The number of levels down to which an expression is followed. -/
def levelLimit : Nat := 994

/-- The levels that an operand of a sign, and a part of a subscript, lies below its expression. -/
def operandLevels : Nat := 1

/-- The levels that an operand between two operands, and an item of a list, lies below its
expression. -/
def itemLevels : Nat := 2

/-- The levels that an argument lies below its call. -/
def argumentLevels : Nat := 3

/-- A link of a chain: an operator, and the evaluation of the operand behind it. -/
structure Link where
  /-- The operator. -/
  op : String
  /-- The evaluation of the operand. -/
  operand : Run Value

/-- Counts a node, if there is room for it. -/
def enter (room : Nat) : Run Unit := if room = 0 then throw .tooDeep else tick

/-- What a name resolves to in an environment; a name that does not resolve stands for itself. A look
into an object of a library is noted, and what it shows is not told. -/
def Env.lookUp (env : Env) (name : String) : Run Value :=
  if env.looksIntoLibrary name then do
    stray
    throw .untold
  else return (env.resolve? name).getD (.unresolved name)

/-- What a name resolves to. -/
def resolved (name : String) : Run Value := do (← get).lookUp name

/-- What an identifier stands for: a truth value, the name of a named argument, or what the name
resolves to. -/
def identifierValue (name : String) (marker : Bool) : Run Value := do
  if name = "true" then return .bool true
  else if name = "false" then return .bool false
  else if marker then return .keyword name
  else resolved name

/-- Applies an operator; parts of the strategy are taken as they are now. -/
def operate (op : String) (left right : Value) : Run Value := do
  let e := (← get).engine
  ofExcept (applyOperator op (left.opened e) (right.opened e))

/-- Applies a sign. -/
def signed (op : String) (v : Value) : Run Value := do
  let e := (← get).engine
  ofExcept (applySign op (v.opened e))

/-- Applies a function as a subscript of a series: what it gives for the series is the subscript, but
must not have several parts. -/
def subscriptedBy (s : Series) (f : Callable) : Run Value := do
  match ← f.call [.series s] [] with
  | .tuple _ => throw .badValue
  | index => do
    let e := (← get).engine
    ofExcept (Subscript.ofSeries s (index.opened e))

/-- A part of a subscript of a series. A function stands for what it gives for the series. -/
def partFor (s : Series) (part : Value) : Run Value :=
  match part.function? with
  | some f => f.call [.series s] []
  | none => return part

/-- The parts of a subscript of a series, from left to right. -/
def partsFor (s : Series) : List Value → Run (List Value)
  | [] => return []
  | part :: rest => do
    let v ← partFor s part
    return v :: (← partsFor s rest)

/-- Applies a subscript that has parts to a series. -/
def subscriptedByParts (s : Series) (parts : List Value) : Run Value :=
  if parts.any fun part => part matches .dict _ then throw .wrongType
  else do
    let values ← partsFor s parts
    let e := (← get).engine
    ofExcept (Subscript.ofParts s (values.map fun v => v.opened e))

/-- Applies a subscript. -/
def subscripted (target index : Value) : Run Value := do
  let e := (← get).engine
  match target.opened e, index.function?, index with
  | .series s, some f, _ => subscriptedBy s f
  | .series s, none, .tuple parts => subscriptedByParts s parts
  | v, _, _ => ofExcept (applySubscript v (index.opened e))

/-- The fault of a call. A function that is given what it does not take has a fault of its own; what
goes wrong inside it stays as it is. -/
def callFault (callee : String) : Fault → Fault
  | .wrongType => .callFailed callee
  | fault => fault

/-- Calls what a callee stands for. If that is no function, the call stays a call. -/
def callValue (callee : String) (target : Option Value) (values : List Value) : Run Value :=
  match target.bind Value.function? with
  | none => return .unresolvedCall callee values
  | some f =>
    let (positional, named) := splitValues values
    (f.call positional named).adapt (callFault callee)

/-- Applies the links of a chain to a value, one after the other. -/
def finish (links : List Link) (v : Value) : Run Value :=
  links.foldlM (fun v link => do operate link.op v (← link.operand)) v

@[simp] theorem finish_nil (v : Value) : finish [] v = pure v := rfl

/-- Enters a node, evaluates it, and applies the links that wait for its value. -/
def entered (room : Nat) (links : List Link) (value : Run Value) : Run Value := do
  enter room
  finish links (← value)

mutual

/-- Evaluates an expression and then applies the links that wait for its value. The flag says that
the expression is the left operand of an operator whose chain it can continue. -/
def Node.evalUnder (room : Nat) (chained : Bool) (links : List Link) : Node → Run Value
  | .number d | .string d => entered room links (return .ofDatum d)
  | .identifier name marker => entered room links (identifierValue name marker)
  | .array items => entered room links do
    return .list (← Node.evalAll (room - itemLevels) items)
  | .index target position => entered room links do
    let v ← target.evalUnder (room - operandLevels) false []
    let i ← position.evalUnder (room - operandLevels) false []
    subscripted v i
  | .unary op operand => entered room links do
    signed op (← operand.evalUnder (room - operandLevels) false [])
  | .call callee args => entered room links do
    let target := (← get).resolve? callee
    let values ← Node.evalAll (room - argumentLevels) args
    callValue callee target values
  | .binary op left right =>
    if chained && op != "^" then do
      tick
      left.evalUnder room true (⟨op, right.evalUnder room false []⟩ :: links)
    else
      let room' := room - itemLevels
      entered room links (left.evalUnder room' (op != "^") [⟨op, right.evalUnder room' false []⟩])

/-- Evaluates several expressions from left to right. -/
def Node.evalAll (room : Nat) : List Node → Run (List Value)
  | [] => return []
  | node :: nodes => do
    let v ← node.evalUnder room false []
    return v :: (← Node.evalAll room nodes)

end

/-- Evaluates an expression. -/
def Node.evaluate (node : Node) : Run Value := node.evalUnder levelLimit false []

end ChartScript
