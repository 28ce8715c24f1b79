import ChartScript.Syntax.Node

/-!
# Trees as plain data

Syntax trees are exchanged with other programs as plain data. Every node is a dictionary that names
its kind under `type` and has one entry for each of its parts; the flag of a marker is present only
where it is set.

`Program.toDatum` writes and `Program.ofDatum` reads. Reading looks at the kind first and then at the
parts in their order, so that of two faults the one met first is reported.
-/

namespace ChartScript

/-- What can be wrong with data that should describe a tree. -/
inductive ExchangeError where
  /-- The kind of a node is none of the eight; the datum is what stands in its place. -/
  | unknownKind (kind : Datum)
  /-- The same in a tree with spans, as the grammar's reader makes them. -/
  | unknownSpannedKind (kind : Datum)
  /-- An entry is missing. -/
  | missing (key : String)
  /-- A datum is of a type that cannot be used in its place. -/
  | unusable
  /-- A dictionary is needed and something else is there. -/
  | notDictionary

namespace Exchange

/-- The value of an entry that must be there. -/
def field (key : String) (entries : List (String × Datum)) : Except ExchangeError Datum :=
  match Datum.find? key entries with
  | some d => .ok d
  | none => .error (.missing key)

/-- A name. -/
def name : Datum → Except ExchangeError String
  | .text s => .ok s
  | _ => .error .unusable

/-- The texts of a list of data that are all texts. -/
def texts (items : List Datum) : Except ExchangeError (List String) := items.mapM name

/-- The indicator lines that an entry lists. A text stands for the list of its characters, and a
dictionary for the list of its keys. -/
def indicatorLines : Option Datum → Except ExchangeError (List String)
  | none => .ok []
  | some (.list items) => texts items
  | some (.text s) => .ok (s.toList.map String.singleton)
  | some (.dict entries) => .ok (entries.map (·.1))
  | some _ => .error .unusable

/-- The kind that a node claims to be of. -/
def kindOf (entries : List (String × Datum)) : Datum := (Datum.find? "type" entries).getD .null

/-- Why a kind is not accepted: a list or a dictionary cannot name one at all. -/
def refuse : Datum → ExchangeError
  | .list _ | .dict _ => .unusable
  | kind => .unknownKind kind

end Exchange

open Exchange

/-! ### Writing -/

mutual

/-- The plain data of an expression. -/
def Node.toDatum : Node → Datum
  | .number value => .dict [("type", .text "Number"), ("value", value)]
  | .string value => .dict [("type", .text "String"), ("value", value)]
  | .identifier name marker =>
    .dict ([("type", .text "Identifier"), ("name", .text name)]
      ++ if marker then [("keyword", .bool true)] else [])
  | .array items => .dict [("type", .text "Array"), ("items", .list (Node.toData items))]
  | .index target position =>
    .dict [("type", .text "Index"), ("target", target.toDatum), ("index", position.toDatum)]
  | .unary op operand =>
    .dict [("type", .text "Unary"), ("op", .text op), ("expr", operand.toDatum)]
  | .binary op left right =>
    .dict [("type", .text "Binary"), ("op", .text op), ("left", left.toDatum),
      ("right", right.toDatum)]
  | .call callee args =>
    .dict [("type", .text "Call"), ("callee", .text callee), ("args", .list (Node.toData args))]

/-- The plain data of several expressions. -/
def Node.toData : List Node → List Datum
  | [] => []
  | node :: nodes => node.toDatum :: Node.toData nodes

end

@[simp] theorem Node.toData_eq_map (nodes : List Node) :
    Node.toData nodes = nodes.map Node.toDatum := by
  induction nodes with
  | nil => simp [Node.toData]
  | cons node nodes ih => simp [Node.toData, ih]

/-- The plain data of a statement. -/
def Assignment.toDatum (a : Assignment) : Datum :=
  .dict [("id", .text a.target), ("expr", a.expr.toDatum)]

/-- The plain data of a program. -/
def Program.toDatum (p : Program) : Datum :=
  .dict [("indicators", .list (p.indicators.map .text)),
    ("assignments", .list (p.assignments.map Assignment.toDatum))]

/-! ### Reading -/

/-- The value of a key is smaller than the entries. -/
theorem Exchange.sizeOf_of_find? {key : String} {entries : List (String × Datum)} {d : Datum}
    (h : Datum.find? key entries = some d) : sizeOf d < sizeOf entries := by
  simp only [Datum.find?, Option.map_eq_some_iff] at h
  obtain ⟨entry, found, rfl⟩ := h
  have := List.sizeOf_lt_of_mem (List.mem_of_find?_eq_some found)
  cases entry
  simp at this ⊢
  omega

mutual

/-- Reads an expression. -/
def Node.ofDatum (d : Datum) : Except ExchangeError Node :=
  match d with
  | .dict entries =>
    match kindOf entries with
    | .text "Number" => return .number (← field "value" entries)
    | .text "String" => return .string (← field "value" entries)
    | .text "Identifier" => do
      let text ← name (← field "name" entries)
      return .identifier text (((Datum.find? "keyword" entries).map Datum.isTrue).getD false)
    | .text "Array" => return .array (← Node.ofItems "items" entries)
    | .text "Index" =>
      return .index (← Node.ofPart "target" entries) (← Node.ofPart "index" entries)
    | .text "Unary" => do
      let op ← name (← field "op" entries)
      return .unary op (← Node.ofPart "expr" entries)
    | .text "Binary" => do
      let op ← name (← field "op" entries)
      return .binary op (← Node.ofPart "left" entries) (← Node.ofPart "right" entries)
    | .text "Call" => do
      let callee ← name (← field "callee" entries)
      return .call callee (← Node.ofItems "args" entries)
    | kind => .error (refuse kind)
  | _ => .error (.unknownKind .null)
termination_by sizeOf d

/-- Reads the expression of an entry that must be there. -/
def Node.ofPart (key : String) (entries : List (String × Datum)) : Except ExchangeError Node :=
  match h : Datum.find? key entries with
  | none => .error (.missing key)
  | some d =>
    have := sizeOf_of_find? h
    Node.ofDatum d
termination_by sizeOf entries

/-- Reads the expressions of an entry that may be missing. A text or a dictionary that is not empty
has items, but none that is an expression. -/
def Node.ofItems (key : String) (entries : List (String × Datum)) :
    Except ExchangeError (List Node) :=
  match h : Datum.find? key entries with
  | none => .ok []
  | some (.list items) =>
    have := sizeOf_of_find? h
    have : sizeOf items < sizeOf entries := by simp at this; omega
    Node.ofData items
  | some (.text s) => if s = "" then .ok [] else .error (.unknownKind .null)
  | some (.dict []) => .ok []
  | some (.dict _) => .error (.unknownKind .null)
  | some _ => .error .unusable
termination_by sizeOf entries

/-- Reads several expressions. -/
def Node.ofData (data : List Datum) : Except ExchangeError (List Node) :=
  match data with
  | [] => .ok []
  | d :: rest => return (← Node.ofDatum d) :: (← Node.ofData rest)
termination_by sizeOf data

end

/-- Reads a statement. -/
def Assignment.ofDatum : Datum → Except ExchangeError Assignment
  | .dict entries => do
    let target ← name (← field "id" entries)
    return { target, expr := ← Node.ofPart "expr" entries }
  | _ => .error .unusable

/-- Reads the statements of an entry that may be missing. -/
def Assignment.ofEntry : Option Datum → Except ExchangeError (List Assignment)
  | none | some (.dict []) | some (.list []) | some (.text "") => .ok []
  | some (.list items) => items.mapM Assignment.ofDatum
  | some _ => .error .unusable

/-- Reads a program. -/
def Program.ofDatum : Datum → Except ExchangeError Program
  | .dict entries => do
    let assignments ← Assignment.ofEntry (Datum.find? "assignments" entries)
    return { indicators := ← indicatorLines (Datum.find? "indicators" entries), assignments }
  | _ => .error .notDictionary

/-- The message about a kind that is not known. -/
def ExchangeError.message? : ExchangeError → Option String
  | .unknownKind kind => some ("Unknown AST node type: " ++ String.ofList kind.shown)
  | .unknownSpannedKind kind => some ("Unknown generated node type: " ++ String.ofList kind.shown)
  | _ => none

end ChartScript
