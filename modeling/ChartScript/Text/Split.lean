/-!
# Splitting text at a mark

A text is split at every occurrence of a mark (`split`). There is at least one part, and a part may
be empty. A dotted name has its segments split at points (`pathSegments`).
-/

namespace ChartScript.Text

/-- The parts of a text between the occurrences of a mark. -/
def split (mark : Char) : List Char → List (List Char)
  | [] => [[]]
  | c :: rest =>
    if c = mark then [] :: split mark rest
    else
      match split mark rest with
      | part :: more => (c :: part) :: more
      | [] => [[c]]

@[simp] theorem split_nil (mark : Char) : split mark [] = [[]] := rfl

/-- There is at least one part. -/
theorem split_ne_nil (mark : Char) (text : List Char) : split mark text ≠ [] := by
  cases text with
  | nil => simp
  | cons c rest =>
    rw [split]
    split
    · simp
    · split <;> simp

/-- The segments of a dotted name. -/
def pathSegments (path : String) : List String := (split '.' path.toList).map String.ofList

end ChartScript.Text
