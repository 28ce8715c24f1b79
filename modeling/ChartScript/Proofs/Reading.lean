import ChartScript.Proofs.LineForms

/-!
# What the line reader makes of a line

A line without blanks at its ends is ignored, is an indicator line, or holds the text of one
expression that the line reader tries to read (`ChartScript.Syntax.expressionText?`). Which of these
it is, and for a statement the target, is settled before the expression is looked at, because a line
that looks like an assignment does not look like a call (`ChartScript.Syntax.looksLikeCall_eq_false`).
-/

namespace ChartScript.Syntax

open ChartScript.Text
open ChartScript.Grammar (isNameChar isNameStart lexed assignmentParts?_cons looksLikeCall_cons
  isNameStart_of_assignmentParts? subset_of_assignmentParts? map_eq_ok)

/-! ### Expressions -/

theorem readExpression_of_lexed {text : List Char} {row : List Lexeme} (h : lexed 1 text = .ok row) :
    readExpression text = .ok (boundedExpression? row) := by
  rw [lexed] at h
  obtain ⟨scanned, hs, rfl⟩ := map_eq_ok h
  rw [readExpression, scan, hs]

/-- An expression that is read is spelled by the lexemes of its text. -/
theorem of_readExpression_eq_some {text : List Char} {n : Node}
    (h : readExpression text = .ok (some n)) :
    ∃ row, lexed 1 text = .ok row ∧ nesting row ≤ depthLimit ∧ Spells .sum row [n] := by
  rw [readExpression, scan] at h
  rw [lexed]
  rcases hs : scanFrom 1 text with e | scanned
  · rw [hs] at h
    cases e <;> cases h
  · rw [hs] at h
    refine ⟨_, rfl, ?_⟩
    have h' : boundedExpression? scanned.lexemes = some n := by simpa using h
    rw [boundedExpression?] at h'
    split at h'
    · rename_i hn
      exact ⟨hn, expression?_eq_some_iff.1 h'⟩
    · cases h'

/-- A row that spells an expression within the bound is read. -/
theorem readExpression_of_spells {text : List Char} {row : List Lexeme} {n : Node}
    (h : lexed 1 text = .ok row)
    (hn : ∀ scanned, scan text = .ok scanned → nesting scanned.lexemes ≤ depthLimit)
    (hs : Spells .sum row [n]) : readExpression text = .ok (some n) := by
  have hrow : nesting row ≤ depthLimit := by
    rw [lexed] at h
    obtain ⟨scanned, hscan, rfl⟩ := map_eq_ok h
    exact hn scanned hscan
  rw [readExpression_of_lexed h, boundedExpression?, if_pos hrow, expression?_eq_some_iff.2 hs]

/-- What is made of a text of which something is made comes from an expression that is read. -/
theorem of_map_readExpression {text : List Char} {form : Option Node → Line}
    (hform : form none = .dropped) {l : Line} (h : (readExpression text).map form = .ok l)
    (hne : l ≠ .dropped) : ∃ n, readExpression text = .ok (some n) ∧ l = form (some n) := by
  obtain ⟨_ | n, hr, rfl⟩ := map_eq_ok h
  · exact absurd hform hne
  · exact ⟨n, hr, rfl⟩

/-! ### Forms -/

/-- The text of the expression that the line reader tries to read. -/
def expressionText? (line : List Char) : Option (List Char) :=
  if line.isEmpty || isCommentLine line || isIndicatorLine line then none
  else
    match assignmentParts? line with
    | some (_, value) => some value
    | none => if looksLikeCall line then some line else none

/-- The text of the expression is a part of the line. -/
theorem subset_of_expressionText? {line text : List Char} (h : expressionText? line = some text) :
    text ⊆ line := by
  rw [expressionText?] at h
  split at h
  · cases h
  · split at h
    · rename_i ha
      cases h
      exact subset_of_assignmentParts? ha
    · split at h <;> cases h
      exact List.Subset.refl line

/-- A line that looks like an assignment does not look like a call. -/
theorem looksLikeCall_eq_false {line : List Char} {parts : List Char × List Char}
    (h : assignmentParts? line = some parts) : looksLikeCall line = false := by
  rcases line with _ | ⟨c, rest⟩
  · cases h
  have hc := isNameStart_of_assignmentParts? (by rw [h]; exact Option.some_ne_none _)
  rw [assignmentParts?_cons hc] at h
  rw [looksLikeCall_cons hc]
  split at h
  · rename_i more ht
    -- what stands before the equals sign is a name of a single segment
    have hd : rest.dropWhile (fun d => isNameChar d || d == '.') = rest.dropWhile isNameChar := by
      refine (takeWhile_widen (fun c hc => by simp [hc]) fun d hd => ?_).2
      obtain ⟨tail, hd⟩ := List.head?_eq_some_iff.1 hd
      rw [hd] at ht
      by_cases hb : isBlank d
      · have hpoint : d ≠ '.' := ne_of_isBlank hb (by decide)
        simp [isNameChar_of_isBlank hb, hpoint]
      · rw [trimStart, List.dropWhile_cons_of_neg hb] at ht
        cases ht
        decide
    rw [hd, ht]
    rfl
  · cases h

section Trimmed

variable {line : List Char}

theorem readTrimmedLine_ignored (h : line.isEmpty || isCommentLine line) :
    readTrimmedLine line = .ok .ignored := by
  rw [readTrimmedLine, if_pos h]

/-- An indicator line is neither empty nor a comment. -/
theorem not_ignored_of_isIndicatorLine (h : isIndicatorLine line) :
    (line.isEmpty || isCommentLine line) = false := by
  simp only [isIndicatorLine, Bool.and_eq_true] at h
  obtain ⟨rest, rfl⟩ := List.isPrefixOf_iff_prefix.1 h.1
  rfl

theorem readTrimmedLine_indicator (h : isIndicatorLine line) :
    readTrimmedLine line = .ok (.indicator (String.ofList line)) := by
  rw [readTrimmedLine, if_neg (by simp [not_ignored_of_isIndicatorLine h]), if_pos h]

variable (hn : (line.isEmpty || isCommentLine line) = false) (hi : ¬ isIndicatorLine line)

include hn hi

theorem readTrimmedLine_dropped (ha : assignmentParts? line = none)
    (hc : looksLikeCall line = false) : readTrimmedLine line = .ok .dropped := by
  rw [readTrimmedLine, if_neg (by simp [hn]), if_neg hi, readAssignment, readCall, ha, hc]
  rfl

theorem readTrimmedLine_reserved {target value : List Char}
    (ha : assignmentParts? line = some (target, value)) (ht : String.ofList target = callTarget) :
    readTrimmedLine line = .ok .dropped := by
  rw [readTrimmedLine, if_neg (by simp [hn]), if_neg hi, readAssignment, readCall, ha,
    looksLikeCall_eq_false ha]
  simp only [if_pos ht]
  rfl

/-- What a line that looks like an assignment says. -/
theorem readTrimmedLine_assignment {target value : List Char}
    (ha : assignmentParts? line = some (target, value)) (ht : String.ofList target ≠ callTarget) :
    readTrimmedLine line = (readExpression value).map fun
      | some expr => .statement { target := String.ofList target, expr }
      | none => .dropped := by
  rw [readTrimmedLine, if_neg (by simp [hn]), if_neg hi, readAssignment, readCall, ha,
    looksLikeCall_eq_false ha]
  simp only [if_neg ht]
  rcases readExpression value with e | _ | n <;> rfl

/-- What a line that looks like a call says. -/
theorem readTrimmedLine_call (ha : assignmentParts? line = none) (hc : looksLikeCall line) :
    readTrimmedLine line = (readExpression line).map fun
      | some (.call callee args) => .statement { target := callTarget, expr := .call callee args }
      | _ => .dropped := by
  rw [readTrimmedLine, if_neg (by simp [hn]), if_neg hi, readAssignment, readCall, ha, if_pos hc]
  rcases readExpression line with e | _ | n
  · rfl
  · rfl
  · cases n <;> rfl

theorem expressionText?_assignment {target value : List Char}
    (ha : assignmentParts? line = some (target, value)) : expressionText? line = some value := by
  rw [expressionText?, if_neg (by simp [hn, hi]), ha]

theorem expressionText?_call (ha : assignmentParts? line = none) (hc : looksLikeCall line) :
    expressionText? line = some line := by
  rw [expressionText?, if_neg (by simp [hn, hi]), ha]
  exact if_pos hc

/-- What a line that holds a statement says if the statement is not dropped. -/
theorem readTrimmedLine_statement {l : Line} (h : readTrimmedLine line = .ok l)
    (hne : l ≠ .dropped) :
    (∃ target value n, assignmentParts? line = some (target, value) ∧
        String.ofList target ≠ callTarget ∧ readExpression value = .ok (some n) ∧
        l = .statement { target := String.ofList target, expr := n }) ∨
      ∃ callee args, assignmentParts? line = none ∧ looksLikeCall line ∧
        readExpression line = .ok (some (.call callee args)) ∧
        l = .statement { target := callTarget, expr := .call callee args } := by
  rcases ha : assignmentParts? line with _ | ⟨target, value⟩
  · by_cases hc : looksLikeCall line
    · rw [readTrimmedLine_call hn hi ha hc] at h
      obtain ⟨n, hr, rfl⟩ := of_map_readExpression rfl h hne
      -- an expression that is no call is dropped, too
      cases n with
      | call callee args => exact .inr ⟨callee, args, rfl, hc, hr, rfl⟩
      | _ => exact absurd rfl hne
    · rw [readTrimmedLine_dropped hn hi ha (by simpa using hc)] at h
      cases h
      exact absurd rfl hne
  · by_cases ht : String.ofList target = callTarget
    · rw [readTrimmedLine_reserved hn hi ha ht] at h
      cases h
      exact absurd rfl hne
    · rw [readTrimmedLine_assignment hn hi ha ht] at h
      obtain ⟨n, hr, rfl⟩ := of_map_readExpression rfl h hne
      exact .inl ⟨target, value, n, rfl, ht, hr, rfl⟩

end Trimmed

/-! ### The bound on nesting -/

/-- Whether the expression on a line, if there is one, is within the bound on nesting. -/
def isShallow (line : List Char) : Bool :=
  (expressionText? (trim line)).all fun text =>
    match scan text with
    | .ok scanned => nesting scanned.lexemes ≤ depthLimit
    | .error _ => true

theorem nesting_of_isShallow {line text : List Char} (h : expressionText? (trim line) = some text)
    (hd : isShallow line) {scanned : Scan} (hs : scan text = .ok scanned) :
    nesting scanned.lexemes ≤ depthLimit := by
  rw [isShallow, h, Option.all_some, hs] at hd
  simpa using hd

end ChartScript.Syntax
