import ChartScript.Data.Datum

/-!
# Faults

Why an evaluation, or a call of a host function, comes to no result. The first group says what is
wrong in terms of the script and carries a message; the second says what kind of operation on values
went wrong.
-/

namespace ChartScript

/-- Why there is no result. -/
inductive Fault where
  /-- The budget of operations, shown as it was given, is spent. -/
  | overBudget (limit : String)
  /-- The expression has too many levels. -/
  | tooDeep
  /-- An operator does not take operands of two types. -/
  | operandTypes (op left right : String)
  /-- A sign does not take an operand of a type. -/
  | operandType (op type : String)
  /-- There is no such operator between two operands. -/
  | unknownOperator (op : String)
  /-- There is no such sign. -/
  | unknownSign (op : String)
  /-- A host function does not take its arguments. -/
  | callFailed (callee : String)
  /-- A value is of a type that cannot be used. -/
  | wrongType
  /-- A value is of the right type but cannot be used. -/
  | badValue
  /-- A dictionary has no such key; the key is named if it is a text. -/
  | noKey (key : Option String)
  /-- A place is not within the bounds of a row. -/
  | outOfRange
  /-- A subscript has more parts than its target has axes. -/
  | tooManyParts
  /-- A number is too large for its use. -/
  | tooLarge
  /-- A division by zero. -/
  | divisionByZero
  /-- A value has no such part. -/
  | noPart
  /-- A result would not fit into memory. -/
  | outOfMemory
  /-- What an object of a library has, or a method of a plain value does, is not told here. -/
  | untold
deriving DecidableEq, Inhabited

/-- The message of a fault in terms of the script. -/
def Fault.message? : Fault → Option String
  | .overBudget limit => some ("Runtime exceeded operation limit (" ++ limit ++ ")")
  | .tooDeep => some "Expression nested too deeply to evaluate"
  | .operandTypes op left right =>
    some ("Unsupported operand types for " ++ op ++ ": " ++ left ++ " and " ++ right)
  | .operandType op type => some ("Unsupported operand type for unary " ++ op ++ ": " ++ type)
  | .unknownOperator op => some ("Unsupported binary op " ++ op)
  | .unknownSign op => some ("Unsupported unary op " ++ op)
  | .callFailed callee => some ("Call to " ++ callee ++ " failed")
  | _ => none

end ChartScript
