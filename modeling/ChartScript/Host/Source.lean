import ChartScript.Value.Grid

/-!
# Sources and lengths

What an indicator is computed from when a script calls it. A source is a series or something that can
be made into one (`Value.toSeries?`); anything else is no source at all, which is no fault. A length
can be any value: `windowLength` makes it fit the number of values there are, and falls back to a
default where it is no number.
-/

namespace ChartScript

namespace Value

/-- An item of a list as a value of a series; no value is a missing one. -/
def toSeriesItem : Value → Except Fault Float
  | null => .ok missing
  | v => v.toFloat

/-- The series of the items of a list, which must not be rows themselves. -/
def seriesOfItems (items : List Value) : Except Fault Series :=
  if items.any isSequence then .error .badValue
  else return .ofValues (← items.mapM toSeriesItem)

/-- The series that a value is or can be made into. -/
def toSeries? : Value → Except Fault (Option Series)
  | series s => .ok (some s.unboxed)
  | list items | tuple items => some <$> seriesOfItems items
  | grid g => if g.shape.length = 1 then .ok (some (.ofValues g.values)) else .error .badValue
  | _ => .ok none

end Value

/-- The last value of a series, or the missing one. -/
def Series.latest (s : Series) : Float := s.last?.getD missing

/-- A length as an integer, or the default where it is of a wrong type or spells none. -/
def lengthOr (default : Int) (length : Value) : Except Fault Int :=
  match length.toInt with
  | .ok n => .ok n
  | .error .wrongType | .error .badValue => .ok default
  | .error fault => .error fault

/-- An integer moved into the bounds of a window over a number of values; over no values every
positive length will do. -/
def clampedLength (n available : Int) : Int :=
  if available = 0 then max 1 n else max 1 (min n available)

/-- A window has at least one place. -/
theorem one_le_clampedLength (n available : Int) : 1 ≤ clampedLength n available := by
  unfold clampedLength
  split <;> omega

/-- A window over some values has no more places than there are values. -/
theorem clampedLength_le {n available : Int} (pos : 1 ≤ available) :
    clampedLength n available ≤ available := by
  unfold clampedLength
  split <;> omega

/-- The length of a window over a number of values. -/
def windowLength (length : Value) (available default : Int) : Except Fault Int :=
  return clampedLength (← lengthOr default length) available

end ChartScript
