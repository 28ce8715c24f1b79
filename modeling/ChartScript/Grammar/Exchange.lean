import ChartScript.Grammar.Reader
import ChartScript.Syntax.Exchange

/-!
# From trees with spans to plain trees

A tree with spans, as plain data, turned into the tree that it describes: spans are dropped, parts get
their usual names, and a named argument becomes a marker and a value. Entries that are not needed may
be missing from the data or hold anything.

`readByGrammar` puts the grammar's reader and this conversion together; it is the second way to read
a source.
-/

namespace ChartScript.Grammar

open Exchange

/-- The entries of a datum that must be a dictionary. -/
def entriesOf : Datum → Except ExchangeError (List (String × Datum))
  | .dict entries => .ok entries
  | _ => .error .notDictionary

mutual

/-- The expression that a datum with spans describes. -/
def nodeOf (d : Datum) : Except ExchangeError Node :=
  match d with
  | .dict entries =>
    match kindOf entries with
    | .text "Number" => return .number (← field "value" entries)
    | .text "String" => return .string (← field "value" entries)
    | .text "Identifier" => return .identifier (← name (← field "name" entries)) false
    | .text "Array" => return .array (← nodesOf "items" false entries)
    | .text "Index" => return .index (← nodeAt "object" entries) (← nodeAt "index" entries)
    | .text "Unary" => do
      let op ← name (← field "operator" entries)
      return .unary op (← nodeAt "argument" entries)
    | .text "Binary" => do
      let op ← name (← field "operator" entries)
      return .binary op (← nodeAt "left" entries) (← nodeAt "right" entries)
    | .text "Call" => do
      let args ← nodesOf "args" true entries
      return .call (← name (← field "callee" entries)) args
    | kind => .error (.unknownSpannedKind kind)
  | _ => .error .notDictionary
termination_by 2 * sizeOf d

/-- The expression that an entry describes. -/
def nodeAt (key : String) (entries : List (String × Datum)) : Except ExchangeError Node :=
  match h : Datum.find? key entries with
  | none => .error (.missing key)
  | some d =>
    have := sizeOf_of_find? h
    nodeOf d
termination_by 2 * sizeOf entries

/-- The expressions that an entry describes, which may be missing; the flag says whether named
arguments are allowed. A text or a dictionary that is not empty has items, but none that is a
dictionary. -/
def nodesOf (key : String) (named : Bool) (entries : List (String × Datum)) :
    Except ExchangeError (List Node) :=
  match h : Datum.find? key entries with
  | none => .ok []
  | some (.list items) =>
    have := sizeOf_of_find? h
    have : sizeOf items < sizeOf entries := by simp at this; omega
    if named then argsOf items else itemsOf items
  | some (.text s) => if s = "" then .ok [] else .error .notDictionary
  | some (.dict []) => .ok []
  | some (.dict _) => .error .notDictionary
  | some _ => .error .unusable
termination_by 2 * sizeOf entries

/-- The expressions that several data describe. -/
def itemsOf (data : List Datum) : Except ExchangeError (List Node) :=
  match data with
  | [] => .ok []
  | d :: rest => return (← nodeOf d) :: (← itemsOf rest)
termination_by 2 * sizeOf data

/-- The arguments that several data describe. -/
def argsOf (data : List Datum) : Except ExchangeError (List Node) :=
  match data with
  | [] => .ok []
  | d :: rest => return (← argOf d) ++ (← argsOf rest)
termination_by 2 * sizeOf data

/-- The argument that a datum describes: one expression, or a marker and a value. -/
def argOf (d : Datum) : Except ExchangeError (List Node) :=
  match d with
  | .dict entries =>
    match kindOf entries with
    | .text "NamedArg" => do
      let key ← name (← field "name" entries)
      return Node.pair key (← nodeAt "value" entries)
    | _ => return [← nodeOf (.dict entries)]
  | _ => .error .notDictionary
termination_by 2 * sizeOf d + 1

end

/-- The target of a statement: the name under `id`, or the reserved target where there is none. -/
def targetOf (entries : List (String × Datum)) : Except ExchangeError String :=
  match Datum.find? "id" entries with
  | none => .ok callTarget
  | some id => if id.isTrue then name id else .ok callTarget

/-- The statement that a datum with spans describes. -/
def assignmentOf (d : Datum) : Except ExchangeError Assignment := do
  let entries ← entriesOf d
  let target ← targetOf entries
  return { target, expr := ← nodeAt "expr" entries }

/-- The statements that an entry describes, which may be missing. -/
def assignmentsOf : Option Datum → Except ExchangeError (List Assignment)
  | none | some (.dict []) | some (.text "") => .ok []
  | some (.list items) => items.mapM assignmentOf
  | some (.text _) | some (.dict _) => .error .notDictionary
  | some _ => .error .unusable

/-- The program that a datum with spans describes. -/
def programOf (d : Datum) : Except ExchangeError Program := do
  let entries ← entriesOf d
  let assignments ← assignmentsOf (Datum.find? "assignments" entries)
  return { indicators := ← indicatorLines (Datum.find? "indicators" entries), assignments }

/-- Why a source cannot be read by the grammar. -/
inductive ReadError where
  /-- The grammar refuses it. -/
  | refused (reason : GrammarError)
  /-- The tree that the grammar makes of it describes no program. -/
  | undescribed (reason : ExchangeError)

/-- Reads a program by the grammar. -/
def readByGrammar (source : String) : Except ReadError Program :=
  match readSpanned source with
  | .error e => .error (.refused e)
  | .ok d =>
    match programOf d with
    | .error e => .error (.undescribed e)
    | .ok p => .ok p

end ChartScript.Grammar
