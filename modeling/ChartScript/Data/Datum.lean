import ChartScript.Number.Numeral
import ChartScript.Text.Quoted

/-!
# Plain data

A `Datum` is a piece of plain data: what a configuration file holds, what a syntax tree looks like
when it is exchanged with another program, and what a report consists of. It has the shapes of JSON,
with integers and floats kept apart and the entries of a dictionary in their order.

Two data are *alike* (`Datum.alike`) when they are equal as values: numbers are compared by what
they stand for, so that `1`, `1.0` and `true` are alike, a non-number is like nothing, and the order
of entries does not count.
-/

namespace ChartScript

/-- A piece of plain data. -/
inductive Datum where
  /-- The absent value. -/
  | null
  /-- A truth value. -/
  | bool (b : Bool)
  /-- An integer of any size. -/
  | int (n : Int)
  /-- A float. -/
  | float (x : Float)
  /-- A text. -/
  | text (s : String)
  /-- A list. -/
  | list (items : List Datum)
  /-- A dictionary: entries with different keys, in order. -/
  | dict (entries : List (String × Datum))
deriving Inhabited

namespace Datum

/-! ### Look-up -/

/-- The value of a key in a list of entries. -/
def find? (key : String) (entries : List (String × α)) : Option α :=
  (entries.find? fun entry => entry.1 == key).map (·.2)

@[simp] theorem find?_nil (key : String) : find? (α := α) key [] = none := rfl

theorem find?_cons (key : String) (entry : String × α) (entries : List (String × α)) :
    find? key (entry :: entries) = if entry.1 = key then some entry.2 else find? key entries := by
  by_cases h : entry.1 = key <;> simp [find?, h]

/-- Binds a key: the value of an entry that is there is replaced in its place, and a new key goes to
the end. -/
def bind (key : String) (value : α) : List (String × α) → List (String × α)
  | [] => [(key, value)]
  | entry :: entries =>
    if entry.1 = key then (key, value) :: entries else entry :: bind key value entries

/-- A key reads back as what it was bound to. -/
@[simp] theorem find?_bind_self (key : String) (value : α) (entries : List (String × α)) :
    find? key (bind key value entries) = some value := by
  induction entries with
  | nil => simp [bind, find?_cons]
  | cons entry entries ih =>
    by_cases h : entry.1 = key <;> simp [bind, h, find?_cons, ih]

/-- Binding a key leaves every other key as it was. -/
theorem find?_bind_of_ne {key other : String} (ne : other ≠ key) (value : α)
    (entries : List (String × α)) :
    find? other (bind key value entries) = find? other entries := by
  induction entries with
  | nil => simp [bind, find?_cons, ne.symm]
  | cons entry entries ih =>
    by_cases h : entry.1 = key
    · simp [bind, h, find?_cons, ne.symm]
    · rw [bind, if_neg h, find?_cons, find?_cons, ih]

/-! ### Truth and likeness -/

/-- Whether a datum counts as true: zero, the absent value and everything empty do not. -/
def isTrue : Datum → Bool
  | null => false
  | bool b => b
  | int n => n != 0
  | float x => x != 0
  | text s => s != ""
  | list items => !items.isEmpty
  | dict entries => !entries.isEmpty

/-- Whether an integer and a float stand for the same number. -/
def sameNumber (n : Int) (x : Float) : Bool :=
  Number.isWhole x && Number.truncate? x == some n

/-- The integer that a truth value counts as. -/
def ofBool (b : Bool) : Int := if b then 1 else 0

mutual

/-- Whether two data are equal as values. -/
def alike : Datum → Datum → Bool
  | null, null => true
  | bool a, bool b => a == b
  | bool a, int n | int n, bool a => ofBool a == n
  | bool a, float x | float x, bool a => sameNumber (ofBool a) x
  | int m, int n => m == n
  | int n, float x | float x, int n => sameNumber n x
  | float x, float y => x == y
  | text s, text t => s == t
  | list xs, list ys => alikeItems xs ys
  | dict es, dict fs => es.length == fs.length && alikeEntries es fs
  | _, _ => false

/-- Whether two lists of data are alike item by item. -/
def alikeItems : List Datum → List Datum → Bool
  | [], [] => true
  | x :: xs, y :: ys => alike x y && alikeItems xs ys
  | _, _ => false

/-- Whether every entry has a counterpart of the same key with a like value. -/
def alikeEntries : List (String × Datum) → List (String × Datum) → Bool
  | [], _ => true
  | (key, value) :: entries, others =>
    (match find? key others with
      | some other => alike value other
      | none => false) && alikeEntries entries others

end

/-! ### Display -/

/-- Joins texts with a separator between them. -/
def joined (separator : List Char) (texts : List (List Char)) : List Char :=
  (texts.intersperse separator).flatten

mutual

/-- The text that shows a datum in a message. -/
def shown : Datum → List Char
  | null => "None".toList
  | bool b => if b then "True".toList else "False".toList
  | int n => Number.intText n
  | float x => Number.floatText .plain x
  | text s => Text.quoted s.toList
  | list items => '[' :: joined [',', ' '] (shownItems items) ++ [']']
  | dict entries => '\x7b' :: joined [',', ' '] (shownEntries entries) ++ ['\x7d']

/-- The texts of the items of a list. -/
def shownItems : List Datum → List (List Char)
  | [] => []
  | item :: items => shown item :: shownItems items

/-- The texts of the entries of a dictionary. -/
def shownEntries : List (String × Datum) → List (List Char)
  | [] => []
  | (key, value) :: entries =>
    (Text.quoted key.toList ++ ':' :: ' ' :: shown value) :: shownEntries entries

end

end Datum

end ChartScript
