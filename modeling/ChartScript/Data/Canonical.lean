import ChartScript.Data.Datum

/-!
# Canonical data

Two descriptions of one thing may differ in the order of entries, and in notes on where in a source
its parts were found. The canonical form (`Datum.canonical`) has neither: entries that only locate
are left out at every level, and the others are sorted by their keys.

The canonical form is made level by level, and only up to a bound on the nesting
(`Datum.canonical?`).
-/

namespace ChartScript.Datum

/-- Whether a key only locates a part in a source. -/
def isLocation (key : String) : Bool :=
  key == "loc" || key == "location" || key == "start" || key == "end"

/-- Whether the key of an entry comes before that of another, or is the same. -/
def keyLe (a b : String × Datum) : Bool := decide (a.1 ≤ b.1)

mutual

/-- The canonical form of a datum. -/
def canonical : Datum → Datum
  | null => null
  | bool b => bool b
  | int n => int n
  | float x => float x
  | text s => text s
  | list items => list (canonicalItems items)
  | dict entries => dict ((canonicalEntries entries).mergeSort keyLe)

/-- The canonical forms of the items of a list. -/
def canonicalItems : List Datum → List Datum
  | [] => []
  | item :: items => canonical item :: canonicalItems items

/-- The entries that do not locate, with canonical values, in their order. -/
def canonicalEntries : List (String × Datum) → List (String × Datum)
  | [] => []
  | (key, value) :: entries =>
    if isLocation key then canonicalEntries entries
    else (key, canonical value) :: canonicalEntries entries

end

mutual

/-- The number of levels of lists and dictionaries in a datum, apart from entries that locate. -/
def levels : Datum → Nat
  | list items => levelsOfItems items + 1
  | dict entries => levelsOfEntries entries + 1
  | _ => 0

/-- The number of levels of the highest of several data. -/
def levelsOfItems : List Datum → Nat
  | [] => 0
  | item :: items => max (levels item) (levelsOfItems items)

/-- The number of levels of the highest of the values of entries that do not locate. -/
def levelsOfEntries : List (String × Datum) → Nat
  | [] => 0
  | (key, value) :: entries =>
    if isLocation key then levelsOfEntries entries else max (levels value) (levelsOfEntries entries)

end

/-- The number of levels up to which a canonical form is made. -/
def canonicalLimit : Nat := 490

/-- The canonical form of a datum that is not nested too deep. -/
def canonical? (d : Datum) : Option Datum :=
  if d.levels ≤ canonicalLimit then some d.canonical else none

end ChartScript.Datum
