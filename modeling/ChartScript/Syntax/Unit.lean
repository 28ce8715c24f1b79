import ChartScript.Data.Json
import ChartScript.Syntax.Exchange
import ChartScript.Syntax.Nesting

/-!
# Runnable units

A program can be shipped as a unit of its own: a text that carries the program as quoted JSON and
around it what a host needs to replay it. `Program.toUnit` writes the text and `Program.ofUnit?`
takes the program out of it again.

A program is rebuilt from plain data up to a bound on the calls that are open (`Program.rebuild`). The
data may come from elsewhere: they may describe no program, and of the fault and the bound the one that
is met first counts. A unit that is replayed rebuilds its program in this way first (`Program.load`).
-/

namespace ChartScript

namespace Syntax

/-- Lines of text, with a line break between two. -/
def unlines (lines : List String) : List Char := Datum.joined ['\n'] (lines.map String.toList)

/-- The text of a unit in front of the quoted program. -/
def unitHead : List Char := unlines [
    "\"\"\"",
    "Generated by star-transpile from Star Script source.",
    "",
    "Requires the star_script package for the AST classes. `run` takes any",
    "runtime exposing evaluate(node, env) and make_default_env().",
    "\"\"\"",
    "import json",
    "",
    "from star_script.language.ast_nodes import Program",
    "",
    "STAR_ALIASES = ('plot', 'ta', 'request', 'input', 'math', 'color', 'strategy')",
    "",
    "PROGRAM_JSON = "]

/-- The text of a unit behind the quoted program. -/
def unitTail : List Char := unlines [
    "",
    "",
    "",
    "def run(runtime, op_limit=None, config=None):",
    "    \"\"\"Replay the program against a fresh environment from `runtime`\"\"\"",
    "    program = Program.from_dict(json.loads(PROGRAM_JSON))",
    "    options = \x7b\x7d",
    "    if op_limit is not None:",
    "        options['op_limit'] = op_limit",
    "    if config is not None:",
    "        options['config'] = config",
    "    env = runtime.make_default_env(**options)",
    "    env['star'] = \x7bname: env[name] for name in STAR_ALIASES\x7d",
    "    for assignment in program.assignments:",
    "        value = runtime.evaluate(assignment.expr, env)",
    "        if not assignment.is_call:",
    "            env[assignment.id] = value",
    "    return \x7b'env': env, 'plots': env.plots\x7d",
    ""]

/-- What is left of a text behind a given beginning. -/
def behind? (start text : List Char) : Option (List Char) :=
  if start.isPrefixOf text then some (text.drop start.length) else none

/-- Behind a beginning stands what was put there. -/
@[simp] theorem behind?_append (start rest : List Char) :
    behind? start (start ++ rest) = some rest := by
  simp [behind?]

end Syntax

open Syntax

/-- The unit that carries a program. -/
def Program.toUnit (p : Program) : List Char :=
  unitHead ++ Text.quoted (Json.compact p.toDatum) ++ unitTail

/-- The plain data that a unit carries. -/
def Program.unitDatum? (text : List Char) : Option Datum := do
  let (json, rest) ← Text.unquote? (← behind? unitHead text)
  if rest = unitTail then Json.read? json else none

/-- The program that a unit carries. -/
def Program.ofUnit? (text : List Char) : Option Program := do
  (Program.ofDatum (← Program.unitDatum? text)).toOption

/-! ### Rebuilding -/

namespace Exchange

/-- What is behind a step is reached only if the step succeeds. -/
def reached {α : Type} (step : Except ExchangeError α) (behind : Nat) : Nat :=
  match step with
  | .ok _ => behind
  | .error _ => 0

mutual

/-- How deep reading an expression goes down, up to the first fault if there is one: two calls for a
level, and one more where it holds a list. -/
def descent (d : Datum) : Nat :=
  match d with
  | .dict entries =>
    match kindOf entries with
    | .text "Array" => descentItems "items" entries + 2
    | .text "Index" =>
      max (descentPart "target" entries)
        (reached (Node.ofPart "target" entries) (descentPart "index" entries)) + 2
    | .text "Unary" => reached (field "op" entries >>= name) (descentPart "expr" entries) + 2
    | .text "Binary" =>
      reached (field "op" entries >>= name) (max (descentPart "left" entries)
        (reached (Node.ofPart "left" entries) (descentPart "right" entries))) + 2
    | .text "Call" => reached (field "callee" entries >>= name) (descentItems "args" entries) + 2
    | _ => 2
  | _ => 2
termination_by sizeOf d

/-- The same for the expression of an entry. -/
def descentPart (key : String) (entries : List (String × Datum)) : Nat :=
  match h : Datum.find? key entries with
  | none => 0
  | some d =>
    have := sizeOf_of_find? h
    descent d
termination_by sizeOf entries

/-- The same for the expressions of an entry. What is no list has no items that go further down. -/
def descentItems (key : String) (entries : List (String × Datum)) : Nat :=
  match h : Datum.find? key entries with
  | some (.list items) =>
    have := sizeOf_of_find? h
    have : sizeOf items < sizeOf entries := by simp at this; omega
    descentAll items + 1
  | _ => 2
termination_by sizeOf entries

/-- The same for several expressions. -/
def descentAll (data : List Datum) : Nat :=
  match data with
  | [] => 0
  | d :: rest => max (descent d) (reached (Node.ofDatum d) (descentAll rest))
termination_by sizeOf data

end

/-- How deep reading a statement goes down. -/
def descentStatement : Datum → Nat
  | .dict entries => reached (field "id" entries >>= name) (descentPart "expr" entries)
  | _ => 0

/-- How deep reading several statements goes down. -/
def descentStatements : List Datum → Nat
  | [] => 0
  | d :: rest => max (descentStatement d) (reached (Assignment.ofDatum d) (descentStatements rest))

/-- How deep reading a program goes down. -/
def descentProgram : Datum → Nat
  | .dict entries =>
    match Datum.find? "assignments" entries with
    | some (.list items) => descentStatements items
    | _ => 0
  | _ => 0

end Exchange

/-- Why a program cannot be rebuilt from plain data. -/
inductive RebuildError where
  /-- The data describe no program. -/
  | malformed (e : ExchangeError)
  /-- The data are nested too deeply. -/
  | tooDeep

/-- Rebuilds a program from plain data. Of a fault and of too deep data the one met first is
reported. -/
def Program.rebuild (d : Datum) : Except RebuildError Program :=
  if Exchange.descentProgram d ≤ depthLimit then (Program.ofDatum d).mapError .malformed
  else .error .tooDeep

/-- Why a unit cannot be replayed. -/
inductive LoadError where
  /-- The text carries no plain data. -/
  | noData
  /-- No program is rebuilt from the data. -/
  | unbuildable (e : RebuildError)

/-- The program that a unit replays. -/
def Program.load (text : List Char) : Except LoadError Program :=
  match Program.unitDatum? text with
  | none => .error .noData
  | some d => (Program.rebuild d).mapError .unbuildable

end ChartScript
