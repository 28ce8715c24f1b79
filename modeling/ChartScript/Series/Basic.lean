import ChartScript.Value.Num

/-!
# Series

A *series* is a row of floats of which every one has a label, as a rule its place in the row
(`Series.ofValues`). Its floats are doubles, unless the series is *boxed*: then every one keeps a type
of its own. A series can have a name, which what is computed from it inherits.

Two series are matched by their labels, and a float that has no counterpart is matched with the
non-number. There are two ways to do so. `Series.matched` pairs every float of a label on one side
with every one on the other; `Series.spread?` first gives both sides the same labels and then pairs
them place by place, which is impossible if a label does not say which of several floats it means.
-/

namespace ChartScript

/-- The float that is not a number, which stands for a missing value. -/
def missing : Float := 0.0 / 0.0

/-- A row of floats with labels. -/
structure Series where
  /-- The name. -/
  name : Option String
  /-- Whether every float keeps a type of its own. -/
  boxed : Bool
  /-- The labels and the floats, in order. -/
  entries : List (Int × Cell)
deriving Inhabited

namespace Series

/-- The labels. -/
def labels (s : Series) : List Int := s.entries.map (·.1)

/-- The floats with their types. -/
def cells (s : Series) : List Cell := s.entries.map (·.2)

/-- The floats. -/
def values (s : Series) : List Float := s.entries.map (·.2.value)

/-- The number of floats. -/
def length (s : Series) : Nat := s.entries.length

/-- The series of a row of doubles, labelled by their places. -/
def ofValues (values : List Float) : Series where
  name := none
  boxed := false
  entries := values.mapIdx fun place value => ((place : Int), .double value)

@[simp] theorem length_ofValues (values : List Float) : (ofValues values).length = values.length := by
  simp [length, ofValues]

/-- The series with the same labels and other cells. -/
def withCells (s : Series) (boxed : Bool) (cells : List Cell) : Series :=
  { s with boxed, entries := s.labels.zip cells }

/-- The series with the same labels and other values, which are doubles. -/
def withValues (s : Series) (values : List Float) : Series := s.withCells false (values.map .double)

/-- The series with all its values as doubles. -/
def unboxed (s : Series) : Series := s.withValues s.values

/-- The series with another name. -/
def named (name : String) (s : Series) : Series := { s with name := some name }

/-- The name of what is computed from two series: that of both, if it is the same. -/
def jointName (s t : Series) : Option String := if s.name = t.name then s.name else none

/-- Applies a function to every value. -/
def map (f : Float → Float) (s : Series) : Series :=
  { s with entries := s.entries.map fun (label, cell) => (label, cell.map f) }

@[simp] theorem length_map (f : Float → Float) (s : Series) : (s.map f).length = s.length := by
  simp [length, map]

@[simp] theorem length_withCells {s : Series} (boxed : Bool) {cells : List Cell}
    (same : cells.length = s.length) : (s.withCells boxed cells).length = s.length := by
  unfold length at same
  simp [length, withCells, labels, same]

@[simp] theorem length_unboxed (s : Series) : s.unboxed.length = s.length :=
  length_withCells false (by simp [values, length])

/-- The last value. -/
def last? (s : Series) : Option Float := s.entries.getLast?.map (·.2.value)

/-! ### Matching by label -/

/-- The cells of one label. -/
abbrev LabelRun := Int × List Cell

/-- Puts a cell in front of runs, into the first one if it has the same label. -/
def consRun (entry : Int × Cell) : List LabelRun → List LabelRun
  | [] => [(entry.1, [entry.2])]
  | (label, cells) :: rest =>
    if entry.1 = label then (label, entry.2 :: cells) :: rest
    else (entry.1, [entry.2]) :: (label, cells) :: rest

/-- The cells of every label, with the labels in ascending order. -/
def runs (s : Series) : List LabelRun :=
  (s.entries.mergeSort fun a b => decide (a.1 ≤ b.1)).foldr consRun []

/-- What two series hold at one label. -/
structure Meeting where
  /-- The label. -/
  label : Int
  /-- The cells of the first series. -/
  left : List Cell
  /-- The cells of the second series. -/
  right : List Cell

/-- The meetings of two rows of runs in ascending order. -/
def meet : List LabelRun → List LabelRun → List Meeting
  | [], right => right.map fun (label, cells) => ⟨label, [], cells⟩
  | left, [] => left.map fun (label, cells) => ⟨label, cells, []⟩
  | (m, xs) :: left, (n, ys) :: right =>
    if m < n then ⟨m, xs, []⟩ :: meet left ((n, ys) :: right)
    else if n < m then ⟨n, [], ys⟩ :: meet ((m, xs) :: left) right
    else ⟨m, xs, ys⟩ :: meet left right
termination_by left right => left.length + right.length

/-- The meetings of two series. -/
def meetings (s t : Series) : List Meeting := meet s.runs t.runs

/-- The cells of a label, or a missing one of the type that the series has. -/
def orMissing (boxed : Bool) : List Cell → List Cell
  | [] => [if boxed then .plain missing else .double missing]
  | cells => cells

/-- A label with a cell of either side. -/
abbrev Pair := Int × Cell × Cell

/-- The cells of two series that have the same labels in the same order. -/
def aligned (s t : Series) : List Pair :=
  List.zipWith (fun a b => (a.1, a.2, b.2)) s.entries t.entries

/-- The cells of two series, matched by label: every cell of a label with every one of the other
side. -/
def matched (s t : Series) : List Pair :=
  if s.labels = t.labels then aligned s t
  else
    (meetings s t).flatMap fun m =>
      (orMissing s.boxed m.left).flatMap fun a =>
        (orMissing t.boxed m.right).map fun b => (m.label, a, b)

/-- The labels of two series: those of one if the other has none, and else all of them in ascending
order, each as often as in the series that has it more often. -/
def jointLabels (s t : Series) : List Int :=
  if t.entries.isEmpty then s.labels
  else if s.entries.isEmpty then t.labels
  else (meetings s t).flatMap fun m => List.replicate (max m.left.length m.right.length) m.label

/-- The only cell of every label, for labels in ascending order. -/
def lookUpAll (boxed : Bool) : List LabelRun → List Int → List Cell
  | _, [] => []
  | runs, label :: labels =>
    let rest := runs.dropWhile fun run => run.1 < label
    let cell := match rest with
      | (own, cell :: _) :: _ => if own = label then [cell] else []
      | _ => []
    orMissing boxed cell ++ lookUpAll boxed rest labels

/-- The series with other labels, each with its cell or a missing one. Where the labels are not
already those, no label may stand twice. -/
def relabelled? (s : Series) (labels : List Int) : Option (List Cell) :=
  if s.labels = labels then some s.cells
  else if s.runs.any fun run => 1 < run.2.length then none
  else some (lookUpAll s.boxed s.runs labels)

/-- The cells of two series, place by place, after both have been given the labels of the two. -/
def spread? (s t : Series) : Option (List Pair) :=
  if s.labels = t.labels then some (aligned s t)
  else do
    let labels := jointLabels s t
    return labels.zip ((← s.relabelled? labels).zip (← t.relabelled? labels))

end Series

end ChartScript
