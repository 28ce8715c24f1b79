import ChartScript.Proofs.Literals
import ChartScript.Proofs.Rendering

/-!
# String literals in front of a text

A string literal ends by itself. Whatever text follows it is cut as if it stood alone, only further to
the right, and in front of its tokens there is one for the string, character by character as it was
before it was written. So no backslash at the end of a string and no quote at the start of the text has
a say in where the literal ends.

That the literal is cut off there is `ChartScript.Syntax.cut_string`. What is left to say is what
standing further to the right means: the column at which a text starts decides the columns of what is
found in it, and nothing else (`ChartScript.Syntax.scanFrom_add`). The main result is
`ChartScript.Syntax.scan_stringLiteral`.
-/

namespace ChartScript.Syntax

/-! ### Further to the right -/

/-- A token that stands further to the right. -/
def Token.moved (width : Nat) (t : Token) : Token := { t with column := t.column + width }

/-- A failure further to the right. A number without a value has no column that could move. -/
def LexError.moved (width : Nat) : LexError → LexError
  | .unexpected c column => .unexpected c (column + width)
  | .unterminated column => .unterminated (column + width)
  | .unreadableNumber => .unreadableNumber

/-- What is found in a text that stands further to the right. -/
def movedScan (width : Nat) : Except LexError Scan → Except LexError Scan
  | .ok found => .ok { tokens := found.tokens.map (Token.moved width), stop := found.stop + width }
  | .error e => .error (e.moved width)

/-- A failure at a lexeme moves with its column. -/
theorem cut_error_add {column : Nat} {c : Char} {rest : List Char} {e : LexError}
    (h : cut column c rest = .error e) (width : Nat) :
    cut (column + width) c rest = .error (e.moved width) := by
  rw [cut] at h ⊢
  split at h <;> rename_i hs
  · obtain ⟨rfl, -⟩ := (cutNumber_eq_error hs).1 h
    rw [if_pos hs, h]
    rfl
  rw [if_neg hs]
  split at h <;> rename_i hq
  · rw [if_pos hq]
    split at h <;> cases h
    rfl
  rw [if_neg hq]
  split at h <;> rename_i hn
  · cases h
  rw [if_neg hn]
  split at h <;> cases h
  rfl

/-- **What is found further to the right is the same with its columns moved.** -/
theorem scanFrom_add (column width : Nat) (text : List Char) :
    scanFrom (column + width) text = movedScan width (scanFrom column text) := by
  fun_induction scanFrom column text with
  | case1 column =>
    rw [scanFrom]
    rfl
  | case2 column c rest hp ih =>
    rw [scanFrom, if_pos hp, Nat.add_right_comm, ih]
  | case3 column c rest hp hc =>
    rw [scanFrom, if_neg hp, if_pos hc]
    rfl
  | case4 column c rest hp hc e hcut =>
    exact scanFrom_error (by simpa using hp) (by simpa using hc) (cut_error_add hcut width)
  | case5 column c rest hp hc found hcut _ e hscan ih =>
    rw [hscan, Nat.add_right_comm] at ih
    rw [scanFrom_cons (by simpa using hp) (by simpa using hc) (cut_column hcut _), ih]
    rfl
  | case6 column c rest hp hc found hcut _ more hscan ih =>
    rw [hscan, Nat.add_right_comm] at ih
    rw [scanFrom_cons (by simpa using hp) (by simpa using hc) (cut_column hcut _), ih]
    rfl

/-! ### The literal in front -/

/-- A string literal is written on one line. -/
theorem newline_not_mem_stringLiteral (s : String) : '\n' ∉ stringLiteral s.toList := by
  intro hbreak
  have hline := List.all_eq_true.1 (tight_string s).line _ hbreak
  cases hline

/-- **A string literal delimits itself.** A string is written as its literal, which has no line break.
A text with the literal in front of it has the string as its first token, and behind that the tokens of
the text, further to the right by the length of the literal; and it fails where the text fails, as much
further to the right. -/
theorem scan_stringLiteral (s : String) (text : List Char) :
    (Node.string (.text s)).render = .ok (stringLiteral s.toList) ∧
    '\n' ∉ stringLiteral s.toList ∧
    scan (stringLiteral s.toList ++ text) =
      match scan text with
      | .ok found => .ok {
          tokens := ⟨.string s, 1⟩ :: found.tokens.map (Token.moved (stringLiteral s.toList).length)
          stop := found.stop + (stringLiteral s.toList).length }
      | .error e => .error (e.moved (stringLiteral s.toList).length) := by
  refine ⟨rfl, newline_not_mem_stringLiteral s, ?_⟩
  have hmoved := scanFrom_add 1 (stringLiteral s.toList).length text
  rw [stringLiteral_append, scan, scanFrom_cons (by decide) rfl (cut_string s text 1), hmoved,
    ← scan]
  rcases scan text with e | found <;> rfl

end ChartScript.Syntax
