import ChartScript.Proofs.RoundTrip

/-!
# Long sums

What follows the parts of an expression downwards stops at some depth, and each pass over expressions
has a bound of its own. A sum of ones tells the passes apart: it is as deep as it is long, whichever way
the depth is counted (`ChartScript.Node.depth_ones`), and it is read however long it is
(`ChartScript.Program.read_ones`), since a reader goes down into brackets and not into the operators of
a sum.
-/

namespace ChartScript

open Syntax

/-- A sum with a number of ones behind the first one. -/
def ones : Nat → Node
  | 0 => .number (.int 1)
  | n + 1 => .binary "+" (ones n) (.number (.int 1))

/-- The text of the sum. -/
def onesText : Nat → List Char
  | 0 => ['1']
  | n + 1 => onesText n ++ ' ' :: '+' :: ' ' :: ['1']

/-- The lexemes of the sum. -/
def onesRow : Nat → List Lexeme
  | 0 => [.int 1]
  | n + 1 => onesRow n ++ .mark .plus :: [.int 1]

/-- The program that assigns the sum to a name. -/
def onesProgram (n : Nat) : Program := { indicators := [], assignments := [⟨"a", ones n⟩] }

/-- The source of that program. -/
def onesSource (n : Nat) : String := String.ofList (assignmentLine "a".toList (onesText n))

/-- **A sum is as deep as it is long.** -/
theorem Node.depth_ones (d : Node.Descent) (n : Nat) :
    (ones n).depth d = d.leaf + n * d.operand := by
  induction n with
  | zero => rw [ones, Node.depth, Nat.zero_mul, Nat.add_zero]
  | succ n ih =>
    rw [ones, Node.depth, ih, Node.depth, Nat.max_eq_left (Nat.le_add_right _ _), Nat.succ_mul,
      Nat.add_assoc]

theorem Node.arranged_ones (n : Nat) : (ones n).arranged = ones n := by
  induction n with
  | zero => rfl
  | succ n ih => rw [ones, Node.arranged, ih, Node.arranged]

theorem Node.toStar_ones (n : Nat) : (ones n).toStar = ones n := by
  induction n with
  | zero => rfl
  | succ n ih => rw [ones, Node.toStar, ih, Node.toStar]

theorem spells_onesRow (n : Nat) : Spells .sum (onesRow n) [ones n] := by
  have hone : Spells .product [.int 1] [intNode 1] :=
    .factor (.base (.unsigned (.plain (.int 1))))
  induction n with
  | zero => exact .term hone
  | succ n ih => exact .sum rfl ih hone

/-- Behind the sum one is where one was before it, but for the operand. -/
theorem foldl_onesRow (n : Nat) :
    (onesRow n).foldl Place.step Place.start = { Place.start with atOperand := false } := by
  induction n with
  | zero => rfl
  | succ n ih =>
    rw [onesRow, List.foldl_append, ih]
    rfl

theorem written_onesText (n : Nat) : Written (· = onesRow n) (onesText n) := by
  have hone : Written (· = [Lexeme.int 1]) (Number.natText 1) :=
    ⟨tight_int 1, _, cutsInto_int (Nat.one_lt_pow (by decide) (by decide)), rfl⟩
  induction n with
  | zero => exact hone
  | succ n ih => exact ih.operator .plus hone fun row row' hrow hrow' => by rw [hrow, hrow', onesRow]

/-- **A sum of any length is read.** -/
theorem Program.read_ones (n : Nat) : Program.read (onesSource n) = .ok (onesProgram n) := by
  have hwritten := written_onesText n
  have hl : IsLeading isTargetChar "a".toList := rfl
  have hspells : Written (Spells .sum · [(ones n).arranged]) (onesText n) := by
    refine hwritten.imp fun row hrow => ?_
    rw [hrow, Node.arranged_ones]
    exact spells_onesRow n
  have hback : ReadsBack (assignmentLine "a".toList (onesText n)) ⟨"a", ones n⟩ :=
    readsBack_assignment hl (by decide) (by decide) hspells
  have hshallow : isShallow (assignmentLine "a".toList (onesText n)) := by
    refine hwritten.isShallow (expressionText?_assignmentLine hl hwritten.tight (by decide))
      fun row hrow => ?_
    rw [hrow, nesting, foldl_onesRow]
    decide
  have hlines : ∀ line ∈ lines (Datum.joined ['\n'] [assignmentLine "a".toList (onesText n)]),
      isShallow line := by
    rw [lines_joined (by simp) (by simpa using hback.1)]
    simpa using hshallow
  have hread := (read_of_readsBack (.cons hback .nil) hlines).1
  rw [joined_singleton] at hread
  rw [onesSource, hread, List.map_singleton, Assignment.arranged, Node.arranged_ones]
  rfl

/-- **A sum with fewer terms than the bound on nesting is rewritten.** -/
theorem Program.toStar_ones {n : Nat} (h : n < depthLimit) :
    (onesProgram n).toStar = .ok (onesProgram n) := by
  have hdepth : (ones n).depth .rewriting ≤ depthLimit := by
    rw [Node.depth_ones]
    show 1 + n * 1 ≤ depthLimit
    omega
  have hassignment : Assignment.toStar ⟨"a", ones n⟩ = .ok ⟨"a", ones n⟩ := by
    rw [Assignment.toStar, if_neg (Nat.not_lt_of_le hdepth), Node.toStar_ones]
  rw [Program.toStar, onesProgram, List.mapM_cons, hassignment]
  rfl

end ChartScript
