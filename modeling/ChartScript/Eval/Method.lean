import ChartScript.Eval.Resolve
import ChartScript.Host.Call
import ChartScript.Value.Subscript

/-!
# Calls

What happens when a script calls what a name stands for (`Callable.call`): a function of the host, or a
method of a plain value. Most methods of plain values only compute something, and what they come to is
given with the environment. The method of a call of something that is no function belongs to the host:
it shows the call as a dictionary.

A script that calls a method that reaches further (`Value.reaches`) strays from what the host offers,
and that is noted before anything else is done. Two of these methods are told here. Clearing a list of
the strategy forgets what was recorded there. Filling in a template (`Template.fill`) reads what its
fields lead to, and a field may go through names that start with an underscore, which no name in a
script can. What the others do is not told. A call of one, like a call of anything that a library has,
comes to no result.
-/

namespace ChartScript

/-! ### Templates -/

namespace Template

/-- A step from a value to something in it. -/
inductive Step where
  /-- To what it has under a name. -/
  | member (name : String)
  /-- To an item. -/
  | item (key : String)

/-- A field: an argument, and the steps that lead from it to what is shown. -/
structure Field where
  /-- The argument: its place, or its name. -/
  argument : String
  /-- The steps. -/
  steps : List Step

/-- The greatest number of digits that a number in a template is read from. -/
def digitLimit : Nat := 18

/-- Whether a text is a name, or a number that is not too long. -/
def isPlain (text : List Char) : Bool :=
  !text.isEmpty && text.all (fun c => c.isAlphanum || c == '_') &&
    (text.length ≤ digitLimit || !text.all Char.isDigit)

/-- A part of a field between two points: a name, and keys in brackets. -/
def piece? (text : List Char) : Option (String × List Step) :=
  match Text.split '[' text with
  | [] => none
  | name :: brackets =>
    if isPlain name then do
      let keys ← brackets.mapM fun bracket =>
        if bracket.getLast? = some ']' && isPlain bracket.dropLast then
          some (Step.item (String.ofList bracket.dropLast))
        else none
      return (String.ofList name, keys)
    else none

/-- A field of the plain form: its parts are names, and all its keys are names or numbers. -/
def field? (text : List Char) : Option Field := do
  match ← (Text.split '.' text).mapM piece? with
  | [] => none
  | (argument, keys) :: more =>
    return { argument, steps := keys ++ more.flatMap fun (name, keys) => .member name :: keys }

/-- The number that a text of digits is, or nothing if it is no such text. -/
def index? (text : String) : Option Nat :=
  (Number.digitValues? text.toList).map Number.ofDigits

/-- What a field reaches on its way: a value, or the environment itself. -/
inductive Reached where
  /-- A value. -/
  | value (v : Value)
  /-- The environment. -/
  | environment

/-- What the environment has under a name. -/
def ofEnvironment (env : Env) : String → Except Fault Value
  | "bindings" => .ok (.dict env.bindings)
  | "inputs" => .ok (.dict env.inputs)
  | "op_count" => .ok (.int env.opCount)
  | _ => .error .untold

/-- What a value has under a name. The namespaces of inputs and of other symbols hold the
environment. -/
def ofValue (env : Env) (name : String) : Value → Except Fault Reached
  | .space .input | .space .request =>
    if name = "_env" then .ok .environment else .error .untold
  | .dict _ => .error .untold
  | .null => if isHidden name then .error .untold else .error .noPart
  | v =>
    if isHidden name then .error .untold
    else
      match v.member? env.engine name with
      | some .foreign => .error .untold
      | some w => .ok (.value w)
      | none => .error .noPart

/-- The item that a value has under a key. -/
def itemOf (env : Env) (key : String) (v : Value) : Except Fault Value :=
  if v.isOfLibrary then .error .untold
  else
    match index? key with
    | some n => applySubscript (v.opened env.engine) (.int n)
    | none => applySubscript (v.opened env.engine) (.text key)

/-- Takes a step. The items of the environment are its names. -/
def follow (env : Env) : Reached → Step → Except Fault Reached
  | .environment, .member name => return .value (← ofEnvironment env name)
  | .environment, .item key => return .value (← itemOf env key (.dict env.bindings))
  | .value v, .member name => ofValue env name v
  | .value v, .item key => return .value (← itemOf env key v)

/-- The argument that a field starts at. -/
def argument (positional : List Value) (named : Options) (name : String) : Except Fault Value :=
  match index? name with
  | some n =>
    match positional[n]? with
    | some v => .ok v
    | none => .error .outOfRange
  | none =>
    match Datum.find? name named with
    | some v => .ok v
    | none => .error (.noKey (some name))

/-- What a field shows. -/
def shownField (env : Env) (positional : List Value) (named : Options) (text : List Char) :
    Except Fault (List Char) := do
  match field? text with
  | none => throw .untold
  | some field => do
    let start ← argument positional named field.argument
    match ← field.steps.foldlM (follow env) (.value start) with
    | .value v => (v.settled env.engine).displayed
    | .environment => throw .untold

/-- Fills in a template. Fields stand in braces, and braces that are text are doubled. The text of a
field that has been opened is kept in reverse. -/
def fill (shown : List Char → Except Fault (List Char)) :
    Option (List Char) → List Char → Except Fault (List Char)
  | none, [] => .ok []
  | none, '\x7b' :: '\x7b' :: rest => return '\x7b' :: (← fill shown none rest)
  | none, '\x7d' :: '\x7d' :: rest => return '\x7d' :: (← fill shown none rest)
  | none, '\x7d' :: _ => .error .badValue
  | none, '\x7b' :: rest => fill shown (some []) rest
  | none, c :: rest => return c :: (← fill shown none rest)
  | some _, [] => .error .badValue
  | some read, '\x7d' :: rest => return (← shown read.reverse) ++ (← fill shown none rest)
  | some read, c :: rest => fill shown (some (c :: read)) rest

end Template

/-! ### Methods -/

/-- What the method of a call of something that is no function shows. -/
def unresolvedCallRecord (callee : String) (args : List Value) : Value :=
  .dict [("callee", .text callee), ("args", .list args)]

/-- Forgets what a list of a strategy has recorded. -/
def Engine.cleared : EnginePart → Engine → Engine
  | .state, e => e
  | .orders, e => { e with orders := [] }
  | .trades, e => { e with trades := [] }
  | .entries, e => { e with entries := [] }
  | .exits, e => { e with exits := [] }

/-- What a method does that reaches further than its value. -/
def Value.ownMethod (owner : Value) (name : String) (positional : List Value) (named : Options) :
    Run Value :=
  match owner, name with
  | .live part, "clear" =>
    if positional.isEmpty && named.isEmpty then withEngine do
      modify (Engine.cleared part)
      return .null
    else throw .wrongType
  | .text s, "format" | .unresolved s, "format" | .keyword s, "format" => do
    let filled ← ofExcept
      (Template.fill (Template.shownField (← get) positional named) none s.toList)
    return .text (String.ofList filled)
  | _, _ => throw .untold

/-- Calls a method of a value. -/
def Value.callMethod (owner : Value) (name : String) (positional : List Value) (named : Options) :
    Run Value :=
  match owner with
  | .unresolvedCall callee args => do
    let _ ← ofExcept ((Engine.nothing true).bind positional named)
    return unresolvedCallRecord callee args
  | owner =>
    if owner.reaches name then do
      stray
      owner.ownMethod name positional named
    else do
      let env ← get
      ofExcept (env.methods env.engine owner name positional named)

/-- Calls something. -/
def Callable.call (f : Callable) (positional : List Value) (named : Options) : Run Value :=
  match f with
  | .host f => f.call positional named
  | .method owner name => owner.callMethod name positional named
  | .foreign => do
    stray
    throw .untold

end ChartScript
