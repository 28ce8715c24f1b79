import ChartScript.Config.Setting
import ChartScript.Text.Hex
import ChartScript.Text.Split

/-!
# Plain scalars

What a word without quotes stands for in a configuration file (`Yaml.ofPlain`): no value, a truth
value in one of several spellings, an integer or a float, and in all other cases just its text.

An integer can be binary, octal, decimal or hexadecimal, or have parts of sixty with colons between
them, and single digits may have underscores between them; a float must have a point. So `010` is
eight, `1:30` is ninety, and `1e5` is a text. A word that spells a date or a moment is a text too, but
one that has to be written in quotes (`isReserved`).
-/

namespace ChartScript.Yaml

open ChartScript.Text (hexDigitValue? split)

/-- The words that stand for no value. -/
def nullWords : List String := ["", "~", "null", "Null", "NULL"]

/-- The words that stand for true. -/
def trueWords : List String := ["yes", "Yes", "YES", "true", "True", "TRUE", "on", "On", "ON"]

/-- The words that stand for false. -/
def falseWords : List String := ["no", "No", "NO", "false", "False", "FALSE", "off", "Off", "OFF"]

/-! ### Integers -/

/-- The value of a digit in a base of at most sixteen. -/
def digitIn? (base : Nat) (c : Char) : Option Nat :=
  match hexDigitValue? c with
  | some d => if d < base then some d else none
  | none => none

/-- The number that digits of a base stand for; underscores between them do not count. -/
def numberIn? (base : Nat) (text : List Char) : Option Nat := do
  let digits ← (text.filter (· != '_')).mapM (digitIn? base)
  if digits.isEmpty then none else some (digits.foldl (fun n d => base * n + d) 0)

/-- Whether a text starts with a digit other than zero. -/
def startsPositive (text : List Char) : Bool := text.head?.any fun c => c.isDigit && c != '0'

/-- A part of sixty: one or two digits, of which the first of two is at most five. -/
def sixtieth? : List Char → Option Nat
  | [c] => digitIn? 10 c
  | [c, d] => do return 10 * (← digitIn? 6 c) + (← digitIn? 10 d)
  | _ => none

/-- The number that parts of sixty stand for. -/
def sexagesimal? (text : List Char) : Option Nat :=
  match split ':' text with
  | first :: second :: rest => do
    let parts ← (second :: rest).mapM sixtieth?
    return parts.foldl (fun n part => 60 * n + part) (← numberIn? 10 first)
  | _ => none

/-- The number that the digits of an integer stand for. -/
def magnitude? : List Char → Option Nat
  | '0' :: 'b' :: digits => numberIn? 2 digits
  | '0' :: 'x' :: digits => numberIn? 16 digits
  | ['0'] => some 0
  | '0' :: digits => numberIn? 8 ('0' :: digits)
  | text =>
    if !startsPositive text then none
    else if text.contains ':' then sexagesimal? text
    else numberIn? 10 text

/-- The integer that a word stands for. -/
def readInt? (word : List Char) : Option Int := do
  let (negative, digits) := Number.splitSign word
  let n ← magnitude? digits
  return if negative then -(n : Int) else n

/-! ### Floats -/

/-- Whether a character is a digit or an underscore. -/
def isDigitOrBar (c : Char) : Bool := c.isDigit || c == '_'

/-- Whether a text is empty or an exponent, which must have a sign. -/
def isExponent : List Char → Bool
  | [] => true
  | 'e' :: sign :: digits | 'E' :: sign :: digits =>
    (sign == '+' || sign == '-') && !digits.isEmpty && digits.all Char.isDigit
  | _ => false

/-- Whether a text is a float with a point; digits before the point can be missing only where there
is no sign. -/
def isDecimal (word : List Char) : Bool :=
  let isSigned := word.head?.any fun c => c == '+' || c == '-'
  let body := (Number.splitSign word).2
  match body with
  | '.' :: fraction =>
    !isSigned && fraction.head?.any Char.isDigit && isExponent (fraction.dropWhile isDigitOrBar)
  | c :: _ =>
    c.isDigit &&
      match body.dropWhile isDigitOrBar with
      | '.' :: fraction => isExponent (fraction.dropWhile isDigitOrBar)
      | _ => false
  | [] => false

/-- The float that parts of sixty stand for; the last part has a point, and the first one can have
any number of digits. -/
def sexagesimalFloat? (text : List Char) : Option Float :=
  match (split ':' text).reverse with
  | seconds :: part :: parts => do
    let (whole, fraction) := (seconds.takeWhile Char.isDigit, seconds.dropWhile Char.isDigit)
    let highest := (part :: parts).getLast (List.cons_ne_nil part parts)
    if !(fraction.head? == some '.' && fraction.tail.all isDigitOrBar) then none
    if !(highest.head?.any Char.isDigit && highest.all isDigitOrBar) then none
    let _ ← (whole :: (part :: parts).dropLast).mapM sixtieth?
    let values ← (seconds :: part :: parts).mapM fun part =>
      Number.readFloat? (part.filter (· != '_'))
    return (values.foldl (fun (sum, weight) x => (sum + x * weight, 60 * weight)) (0.0, 1.0)).1
  | _ => none

/-- The words for the infinity. -/
def infinityWords : List String := [".inf", ".Inf", ".INF"]

/-- The words for the float that is not a number. -/
def notANumberWords : List String := [".nan", ".NaN", ".NAN"]

/-- The float that a word stands for. -/
def readFloat? (word : List Char) : Option Float :=
  let (negative, body) := Number.splitSign word
  if infinityWords.contains (String.ofList body) then
    some (if negative then -1.0 / 0.0 else 1.0 / 0.0)
  else if notANumberWords.contains (String.ofList word) then some (0.0 / 0.0)
  else if isDecimal word then Number.readFloat? (word.filter (· != '_'))
  else (sexagesimalFloat? body).map fun x => if negative then -x else x

/-! ### Words -/

/-- Whether a text has so many digits and nothing else. -/
def isNumeral (least most : Nat) (text : List Char) : Bool :=
  least ≤ text.length && text.length ≤ most && text.all Char.isDigit

/-- Whether a word spells a date, with two digits for the month and the day. -/
def isDate (word : List Char) : Bool :=
  match split '-' word with
  | [year, month, day] => isNumeral 4 4 year && isNumeral 2 2 month && isNumeral 2 2 day
  | _ => false

/-- Whether a text is nothing or a zone of time, which can stand behind blanks. -/
def isZone (text : List Char) : Bool :=
  text.isEmpty ||
    match text.dropWhile isGapInLine with
    | ['Z'] => true
    | sign :: offset =>
      (sign == '+' || sign == '-') &&
        match split ':' offset with
        | [hours] => isNumeral 1 2 hours
        | [hours, minutes] => isNumeral 1 2 hours && isNumeral 2 2 minutes
        | _ => false
    | [] => false
where
  /-- Whether a character is a blank or a tab. -/
  isGapInLine (c : Char) : Bool := c == ' ' || c == '\t'

/-- Whether a text is a time of day, with or without a zone. -/
def isTime (text : List Char) : Bool :=
  match split ':' text with
  | hours :: minutes :: seconds :: zone =>
    let (whole, rest) := (seconds.takeWhile Char.isDigit, seconds.dropWhile Char.isDigit)
    let rest := match rest with
      | '.' :: fraction => fraction.dropWhile Char.isDigit
      | rest => rest
    isNumeral 1 2 hours && isNumeral 2 2 minutes && isNumeral 2 2 whole
      && isZone (zone.foldl (fun text part => text ++ ':' :: part) rest)
  | _ => false

/-- Whether a word spells a moment: a date and a time with a `T` or blanks between them. -/
def isMoment (word : List Char) : Bool :=
  let separator := fun c => c == 'T' || c == 't' || isZone.isGapInLine c
  let time := match word.dropWhile (!separator ·) with
    | 'T' :: time | 't' :: time => time
    | time => time.dropWhile isZone.isGapInLine
  match split '-' (word.takeWhile (!separator ·)) with
  | [year, month, day] =>
    isNumeral 4 4 year && isNumeral 1 2 month && isNumeral 1 2 day && isTime time
  | _ => false

/-- Whether a word has a meaning of its own that no setting has. -/
def isReserved (word : List Char) : Bool :=
  isDate word || isMoment word || word == ['='] || word == ['<', '<']

/-- What a word without quotes stands for. -/
def ofPlain (word : List Char) : Setting :=
  let s := String.ofList word
  if nullWords.contains s then .null
  else if trueWords.contains s then .bool true
  else if falseWords.contains s then .bool false
  else
    match readInt? word, readFloat? word with
    | some n, _ => .int n
    | none, some x => .float x
    | none, none => .text s

/-- Whether a text without quotes reads back as that text. -/
def isPlainText (word : List Char) : Bool :=
  match ofPlain word with
  | .text _ => !isReserved word
  | _ => false

end ChartScript.Yaml
