/-!
# Character classes as tables of ranges

The character classes of the script language follow the Unicode standard (version 14), and a class
beyond the basic Latin block is a table of closed ranges of code points. This file gives the look-up
that the tables share, and the one fact that is needed of it: a character is in the class exactly
when one of the ranges holds its code point.
-/

namespace ChartScript.Text

/-- Whether one of the closed ranges of the table holds the code point. -/
def inRanges (table : Array (Nat × Nat)) (code : Nat) : Bool :=
  table.any fun range => range.1 ≤ code && code ≤ range.2

theorem inRanges_iff {table : Array (Nat × Nat)} {code : Nat} :
    inRanges table code = true ↔ ∃ range ∈ table, range.1 ≤ code ∧ code ≤ range.2 := by
  simp only [inRanges, Array.any_eq_true', Bool.and_eq_true, decide_eq_true_eq]

end ChartScript.Text
