import ChartScript.Data.Json
import ChartScript.Value.Num

/-!
# Settings

What a configuration holds is plain data but for one thing: an entry of a section can be filed under
any single word, so that besides names there are numbers, truth values and the absent value as keys
(`Key`). Only a name can be asked for, but the other entries stay where they are and are saved with
the rest.

Keys are the *same* (`Key.same`) when they are equal as values: `1`, `1.0` and `true` are one key. An
entry keeps the key that it was first filed under, and its place in the section.

`Setting.ofDatum` and `Setting.toDatum` lead to plain data and back, where the other keys become
names; `toDatum_ofDatum` says that nothing else is lost.
-/

namespace ChartScript

/-! ### Keys -/

/-- What an entry of a section is filed under. -/
inductive Key where
  /-- A name. -/
  | name (s : String)
  /-- The absent value. -/
  | null
  /-- A truth value. -/
  | bool (b : Bool)
  /-- An integer. -/
  | int (n : Int)
  /-- A float. -/
  | float (x : Float)
deriving Inhabited

namespace Key

/-- A key as plain data. -/
def toDatum : Key → Datum
  | name s => .text s
  | null => .null
  | bool b => .bool b
  | int n => .int n
  | float x => .float x

/-- Whether two keys are equal as values. -/
def same (a b : Key) : Bool := a.toDatum.alike b.toDatum

/-- Only a name is the same as a name, and only if it is spelled alike. -/
@[simp] theorem same_name (key : Key) (s : String) : key.same (name s) = true ↔ key = name s := by
  cases key <;> simp [same, toDatum, Datum.alike]

/-- A key as a name. -/
def label : Key → String
  | name s => s
  | key => String.ofList (Json.scalarText key.toDatum)

/-- Whether a key is a name. -/
def isName : Key → Bool
  | name _ => true
  | _ => false

/-- The number that a key is; a truth value counts as an integer. -/
def num? : Key → Option Num
  | bool b => some (.int (Datum.ofBool b))
  | int n => some (.int n)
  | float x => some (.float .plain x)
  | _ => none

/-- Whether a key comes before another of its kind. -/
def lt (a b : Key) : Bool :=
  match a, b, a.num?, b.num? with
  | name s, name t, _, _ => decide (s < t)
  | _, _, some m, some n => m.lt n
  | _, _, _, _ => false

end Key

/-! ### Settings and sections -/

/-- What a configuration holds. -/
inductive Setting where
  /-- The absent value. -/
  | null
  /-- A truth value. -/
  | bool (b : Bool)
  /-- An integer of any size. -/
  | int (n : Int)
  /-- A float. -/
  | float (x : Float)
  /-- A text. -/
  | text (s : String)
  /-- A list. -/
  | list (items : List Setting)
  /-- A section: entries with different keys, in order. -/
  | dict (entries : List (Key × Setting))
deriving Inhabited

/-- The entries of a section. -/
abbrev Section := List (Key × Setting)

namespace Section

/-- What is filed under a key. -/
def find? (key : Key) (entries : Section) : Option Setting :=
  (List.find? (fun entry => entry.1.same key) entries).map (·.2)

@[simp] theorem find?_nil (key : Key) : find? key [] = none := rfl

theorem find?_cons (key : Key) (entry : Key × Setting) (entries : Section) :
    find? key (entry :: entries) =
      if entry.1.same key then some entry.2 else find? key entries := by
  cases h : entry.1.same key <;> simp [find?, h]

/-- Files a setting under a key: what is there is replaced in its place, and a new key goes to the
end. -/
def bind (key : Key) (d : Setting) : Section → Section
  | [] => [(key, d)]
  | entry :: entries =>
    if entry.1.same key then (entry.1, d) :: entries else entry :: bind key d entries

/-- A name reads back as what was filed under it. -/
@[simp] theorem find?_bind_self (s : String) (d : Setting) (entries : Section) :
    find? (.name s) (bind (.name s) d entries) = some d := by
  induction entries with
  | nil => simp [bind, find?_cons]
  | cons entry entries ih =>
    cases h : entry.1.same (.name s) <;> simp [bind, h, find?_cons, ih]

/-- Filing under a key leaves every name as it was that is not this key. -/
theorem find?_bind_of_ne {key : Key} {s : String} (ne : key ≠ .name s) (d : Setting)
    (entries : Section) : find? (.name s) (bind key d entries) = find? (.name s) entries := by
  have key_other : key.same (.name s) = false := by
    rw [Bool.eq_false_iff]
    simpa using ne
  induction entries with
  | nil => simp [bind, find?_cons, key_other]
  | cons entry entries ih =>
    cases h : entry.1.same key with
    | false => simp [bind, h, find?_cons, ih]
    | true =>
      have entry_other : entry.1.same (.name s) = false := by
        cases hs : entry.1.same (.name s) with
        | false => rfl
        | true =>
          rw [(Key.same_name _ _).mp hs] at h
          cases key <;> simp_all [Key.same, Key.toDatum, Datum.alike]
      simp [bind, h, find?_cons, entry_other]

end Section

namespace Setting

/-- Whether a setting counts as true. -/
def isTrue : Setting → Bool
  | null => false
  | bool b => b
  | int n => n != 0
  | float x => x != 0
  | text s => s != ""
  | list items => !items.isEmpty
  | dict entries => !entries.isEmpty

/-- The key that a setting is; a list or a section is none. -/
def key? : Setting → Option Key
  | null => some .null
  | bool b => some (.bool b)
  | int n => some (.int n)
  | float x => some (.float x)
  | text s => some (.name s)
  | list _ | dict _ => none

/-! ### Plain data -/

mutual

/-- Plain data as a setting. -/
def ofDatum : Datum → Setting
  | .null => null
  | .bool b => bool b
  | .int n => int n
  | .float x => float x
  | .text s => text s
  | .list items => list (ofItems items)
  | .dict entries => dict (ofEntries entries)

/-- The items of a list as settings. -/
def ofItems : List Datum → List Setting
  | [] => []
  | d :: rest => ofDatum d :: ofItems rest

/-- The entries of a dictionary as those of a section. -/
def ofEntries : List (String × Datum) → Section
  | [] => []
  | (s, d) :: rest => (.name s, ofDatum d) :: ofEntries rest

end

mutual

/-- A setting as plain data. -/
def toDatum : Setting → Datum
  | null => .null
  | bool b => .bool b
  | int n => .int n
  | float x => .float x
  | text s => .text s
  | list items => .list (toItems items)
  | dict entries => .dict (toEntries entries)

/-- The items of a list as plain data. -/
def toItems : List Setting → List Datum
  | [] => []
  | d :: rest => toDatum d :: toItems rest

/-- The entries of a section as those of a dictionary. -/
def toEntries : List (Key × Setting) → List (String × Datum)
  | [] => []
  | (key, d) :: rest => (key.label, toDatum d) :: toEntries rest

end

mutual

/-- Plain data comes back as it was. -/
@[simp] theorem toDatum_ofDatum : (d : Datum) → (ofDatum d).toDatum = d
  | .null | .bool _ | .int _ | .float _ | .text _ => rfl
  | .list items => by simp [ofDatum, toDatum, toItems_ofItems items]
  | .dict entries => by simp [ofDatum, toDatum, toEntries_ofEntries entries]

/-- The items of a list come back as they were. -/
theorem toItems_ofItems : (items : List Datum) → toItems (ofItems items) = items
  | [] => rfl
  | d :: rest => by simp [ofItems, toItems, toDatum_ofDatum d, toItems_ofItems rest]

/-- The entries of a dictionary come back as they were. -/
theorem toEntries_ofEntries :
    (entries : List (String × Datum)) → toEntries (ofEntries entries) = entries
  | [] => rfl
  | (s, d) :: rest => by
    simp [ofEntries, toEntries, Key.label, toDatum_ofDatum d, toEntries_ofEntries rest]

end

end Setting

end ChartScript
