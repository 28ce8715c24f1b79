import ChartScript.Value.Basic

/-!
# Signatures

How the arguments of a call are matched with what a function takes. A function has parameters, some
with a default; beyond them it may take further positional arguments, and further named ones as
options (`Signature.bind`).

A parameter is given at most once, by place or by name. A function that belongs to an object has the
name `self` taken.
-/

namespace ChartScript

/-- Named arguments: different names and their values. -/
abbrev Options := List (String × Value)

/-- What a function takes. -/
structure Signature where
  /-- The parameters, each with its default if it has one. -/
  params : List (String × Option Value)
  /-- Whether further positional arguments are taken. -/
  takesRest : Bool
  /-- Whether further named arguments are taken. -/
  takesOptions : Bool
  /-- Whether the function belongs to an object. -/
  isMember : Bool

/-- Arguments matched with a signature. -/
structure Bound where
  /-- The values of the parameters, in their order. -/
  args : List Value
  /-- The further positional arguments. -/
  rest : List Value
  /-- The further named arguments. -/
  options : Options

/-- The values of parameters, given the positional arguments that are left and the named ones. -/
def bindParams (named : Options) :
    List (String × Option Value) → List Value → Option (List Value)
  | [], _ => some []
  | (name, _) :: params, v :: positional =>
    if (Datum.find? name named).isSome then none
    else (bindParams named params positional).map (v :: ·)
  | (name, default?) :: params, [] =>
    match (Datum.find? name named).or default? with
    | some v => (bindParams named params []).map (v :: ·)
    | none => none

namespace Signature

/-- Whether a name is that of a parameter. -/
def hasParam (s : Signature) (name : String) : Bool := s.params.any fun param => param.1 == name

/-- Matches the arguments of a call. -/
def bind (s : Signature) (positional : List Value) (named : Options) : Except Fault Bound :=
  let rest := positional.drop s.params.length
  let options := named.filter fun arg => !s.hasParam arg.1
  if s.isMember && (Datum.find? "self" named).isSome then .error .wrongType
  else if !s.takesRest && !rest.isEmpty then .error .wrongType
  else if !s.takesOptions && !options.isEmpty then .error .wrongType
  else
    match bindParams named s.params positional with
    | some args => .ok { args, rest, options }
    | none => .error .wrongType

/-- The signature of a member with parameters that must be given, and options. -/
def member (names : List String) : Signature where
  params := names.map fun name => (name, none)
  takesRest := false
  takesOptions := true
  isMember := true

/-- The signature of a member that takes any arguments. -/
def anything : Signature where
  params := []
  takesRest := true
  takesOptions := true
  isMember := true

end Signature

/-- Takes evaluated arguments apart into positional and named ones. A keyword is the name of the
value behind it; of two values of one name the later counts. -/
def splitValues : List Value → List Value × Options
  | values => go [] [] values
where
  /-- Takes further arguments apart, in front of which there were some. -/
  go (positional : List Value) (named : Options) : List Value → List Value × Options
    | [] => (positional.reverse, named)
    | .keyword name :: value :: rest => go positional (Datum.bind name value named) rest
    | value :: rest => go (value :: positional) named rest

end ChartScript
