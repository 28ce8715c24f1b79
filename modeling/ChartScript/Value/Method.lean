import ChartScript.Value.Basic

/-!
# Members of plain values

What a script finds behind the point of a number, a text, a list, a tuple or a call of something that
is no function. Numbers have parts, and all of these values have methods, of which a script gets hold
without calling them (`Value.ownMember?`). They are those of the language that the host is written in.
Most methods only compute something. A few change a list or look through what they are given
(`Value.reaches`).

A series, a grid, and a float that was read out of one are objects of a library. Which members these
have is for the library to say (`Value.isOfLibrary`).
-/

namespace ChartScript

/-- The methods of a text. -/
def textMethods : List String :=
  ["capitalize", "casefold", "center", "count", "encode", "endswith", "expandtabs", "find", "format",
   "format_map", "index", "isalnum", "isalpha", "isascii", "isdecimal", "isdigit", "isidentifier",
   "islower", "isnumeric", "isprintable", "isspace", "istitle", "isupper", "join", "ljust", "lower",
   "lstrip", "maketrans", "partition", "removeprefix", "removesuffix", "replace", "rfind", "rindex",
   "rjust", "rpartition", "rsplit", "rstrip", "split", "splitlines", "startswith", "strip", "swapcase",
   "title", "translate", "upper", "zfill"]

/-- The methods of a list. -/
def listMethods : List String :=
  ["append", "clear", "copy", "count", "extend", "index", "insert", "pop", "remove", "reverse", "sort"]

/-- The methods of a tuple. -/
def tupleMethods : List String := ["count", "index"]

/-- The methods of an integer and of a truth value. -/
def intMethods : List String :=
  ["as_integer_ratio", "bit_count", "bit_length", "conjugate", "from_bytes", "to_bytes"]

/-- The methods of a plain float. -/
def floatMethods : List String :=
  ["as_integer_ratio", "conjugate", "fromhex", "hex", "is_integer"]

/-- The method of a call of something that is no function. -/
def unresolvedCallMethods : List String := ["to_dict"]

namespace Value

/-- Whether a value is an object of a library. -/
def isOfLibrary : Value → Bool
  | series _ | grid _ | double _ | half _ | foreign => true
  | _ => false

/-- The methods of a value. The position of a strategy has none, its other parts are lists. -/
def methods : Value → List String
  | text _ | unresolved _ | keyword _ => textMethods
  | list _ | live .orders | live .trades | live .entries | live .exits => listMethods
  | tuple _ => tupleMethods
  | int _ | bool _ => intMethods
  | float _ => floatMethods
  | unresolvedCall _ _ => unresolvedCallMethods
  | _ => []

/-- Whether a method of a value does more than to compute something: it changes a list, or it fills in a
text as a template, which goes through the parts of what it is given. -/
def reaches (name : String) : Value → Bool
  | text _ | unresolved _ | keyword _ => ["format", "format_map"].contains name
  | list _ | live _ =>
    ["append", "clear", "extend", "insert", "pop", "remove", "reverse", "sort"].contains name
  | _ => false

/-- A part of an integer. -/
def intPart? (name : String) (n : Int) : Option Value :=
  match name with
  | "real" | "numerator" => some (int n)
  | "imag" => some (int 0)
  | "denominator" => some (int 1)
  | _ => none

/-- A part of a number. -/
def numberPart? (name : String) : Value → Option Value
  | int n => intPart? name n
  | bool b => intPart? name (if b then 1 else 0)
  | float x =>
    match name with
    | "real" => some (float x)
    | "imag" => some (float 0.0)
    | _ => none
  | _ => none

/-- What a plain value has under a name. -/
def ownMember? (name : String) (v : Value) : Option Value :=
  if v.isOfLibrary then some foreign
  else if v.methods.contains name then some (method v name)
  else v.numberPart? name

end Value

end ChartScript
