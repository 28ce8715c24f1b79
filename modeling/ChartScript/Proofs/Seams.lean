import ChartScript.Syntax.Source
import Mathlib.Data.List.Forall2
import Mathlib.Data.List.TakeWhile

/-!
# The seams between lines

A script is read line by line, and what one line says does not depend on the others. So two scripts
with a line break between them say what the first one says and then what the second one says
(`ChartScript.Program.read_seams`), whatever the first one ends in.

The one character that could belong to either side of a seam is a carriage return in front of the line
break: it is part of the break (`ChartScript.Syntax.brokenLines`), or the last character of the line
(`ChartScript.Syntax.lines`). It does not matter which, since a line is taken without the blanks at its
ends, and a carriage return is a blank (`ChartScript.Syntax.readLine_return`).
-/

namespace ChartScript

namespace Text

/-- Blanks behind a text are taken off its end. -/
theorem trimEnd_append_blanks (text : List Char) {blanks : List Char}
    (h : ∀ c ∈ blanks, isBlank c) : trimEnd (text ++ blanks) = trimEnd text := by
  have hreverse : ∀ c ∈ blanks.reverse, isBlank c := fun c hc => h c (List.mem_reverse.1 hc)
  rw [trimEnd, trimEnd, List.reverse_append, List.dropWhile_append_of_pos hreverse]

theorem trim_append_blanks (text : List Char) {blanks : List Char} (h : ∀ c ∈ blanks, isBlank c) :
    trim (text ++ blanks) = trim text := by
  rw [trim, trim, trimStart, trimStart, List.dropWhile_append]
  split
  · rename_i hempty
    rw [List.isEmpty_iff.1 hempty, List.dropWhile_eq_nil_iff.2 h]
  · exact trimEnd_append_blanks _ h

end Text

namespace Syntax

/-! ### Carriage returns at the end of a line -/

/-- A carriage return at the end of a line says nothing. -/
theorem readLine_return (line : List Char) : readLine (line ++ ['\r']) = readLine line := by
  have hblank : ∀ c ∈ ['\r'], Text.isBlank c := by
    simp [Text.isBlank, Text.blankCodes]
  rw [readLine, readLine, Text.trim_append_blanks line hblank]

/-- The second line is the first one, perhaps with a carriage return behind it. -/
def SameButReturn (line line' : List Char) : Prop := line' = line ∨ line' = line ++ ['\r']

theorem SameButReturn.cons {line line' : List Char} (h : SameButReturn line line') (c : Char) :
    SameButReturn (c :: line) (c :: line') := by
  rcases h with rfl | rfl
  · exact .inl rfl
  · exact .inr rfl

theorem SameButReturn.readLine {line line' : List Char} (h : SameButReturn line line') :
    readLine line' = readLine line := by
  rcases h with rfl | rfl
  · rfl
  · exact readLine_return line

/-- Lines that are the same but for carriage returns at their ends say the same. -/
theorem mapM_readLine_congr {texts texts' : List (List Char)}
    (h : List.Forall₂ SameButReturn texts texts') : texts'.mapM readLine = texts.mapM readLine := by
  induction h with
  | nil => rfl
  | cons hline _ ih => rw [List.mapM_cons, List.mapM_cons, hline.readLine, ih]

/-! ### Line breaks of two characters -/

/-- A text with every line break written as a carriage return and a line feed. -/
def withReturns : List Char → List Char
  | [] => []
  | c :: rest => if c = '\n' then '\r' :: '\n' :: withReturns rest else c :: withReturns rest

/-- The lines of a text, where a carriage return in front of a line feed is part of the break. -/
def brokenLines : List Char → List (List Char)
  | [] => [[]]
  | '\r' :: '\n' :: rest => [] :: brokenLines rest
  | c :: rest =>
    if c = '\n' then [] :: brokenLines rest
    else
      match brokenLines rest with
      | line :: more => (c :: line) :: more
      | [] => [[c]]

theorem lines_newline (rest : List Char) : lines ('\n' :: rest) = [] :: lines rest := by
  rw [lines, if_pos rfl]

theorem lines_cons {c : Char} (hc : c ≠ '\n') {rest line : List Char} {more : List (List Char)}
    (h : lines rest = line :: more) : lines (c :: rest) = (c :: line) :: more := by
  rw [lines, if_neg hc, h]

/-- A carriage return in front of a line feed is a line of its own if nothing stands before it. -/
theorem lines_return_newline (rest : List Char) :
    lines ('\r' :: '\n' :: rest) = ['\r'] :: lines rest :=
  lines_cons (by decide) (lines_newline rest)

/-- Two texts whose lines are the same but for carriage returns, with one more character in front of
both. -/
theorem lines_cons_congr {c : Char} (hc : c ≠ '\n') {text text' : List Char}
    (h : List.Forall₂ SameButReturn (lines text) (lines text')) :
    List.Forall₂ SameButReturn (lines (c :: text)) (lines (c :: text')) := by
  obtain ⟨line, more, hlines⟩ := List.exists_cons_of_ne_nil (lines_ne_nil text)
  obtain ⟨line', more', hlines'⟩ := List.exists_cons_of_ne_nil (lines_ne_nil text')
  rw [hlines, hlines', List.forall₂_cons] at h
  rw [lines_cons hc hlines, lines_cons hc hlines']
  exact .cons (h.1.cons c) h.2

/-- Longer line breaks put carriage returns behind lines and change nothing else. -/
theorem lines_withReturns (text : List Char) :
    List.Forall₂ SameButReturn (lines text) (lines (withReturns text)) := by
  induction text with
  | nil => exact .cons (.inl rfl) .nil
  | cons c rest ih =>
    rw [withReturns]
    split
    · rename_i hc
      rw [hc, lines_newline, lines_return_newline]
      exact .cons (.inr rfl) ih
    · rename_i hc
      exact lines_cons_congr hc ih

/-- Counting a carriage return to the break takes it off the end of a line and changes nothing else. -/
theorem brokenLines_lines (text : List Char) :
    List.Forall₂ SameButReturn (brokenLines text) (lines text) := by
  fun_induction brokenLines text with
  | case1 => exact .cons (.inl rfl) .nil
  | case2 rest ih =>
    rw [lines_return_newline]
    exact .cons (.inr rfl) ih
  | case3 rest _ ih =>
    rw [lines_newline]
    exact .cons (.inl rfl) ih
  | case4 c rest _ hc line more hbroken ih =>
    rw [hbroken] at ih
    obtain ⟨line', more', hlines⟩ := List.exists_cons_of_ne_nil (lines_ne_nil rest)
    rw [hlines, List.forall₂_cons] at ih
    rw [lines_cons hc hlines]
    exact .cons (ih.1.cons c) ih.2
  | case5 c rest _ hc hbroken ih =>
    rw [hbroken] at ih
    exact absurd (List.forall₂_nil_left_iff.1 ih) (lines_ne_nil rest)

end Syntax

/-! ### Whole scripts -/

/-- A program and then another one. -/
def Program.followedBy (p q : Program) : Program where
  indicators := p.indicators ++ q.indicators
  assignments := p.assignments ++ q.assignments

open Syntax

/-- **Reading is local to lines.** Of two scripts with a line break between them, what the first one
says is read and then what the second one says, whatever stands at the seam; if one of them cannot be
read, neither can both. Writing the line breaks as a carriage return and a line feed makes no
difference, and neither does counting a carriage return to the break or to the line. -/
theorem Program.read_seams (s t : String) :
    (Program.read (s ++ "\n" ++ t) = do
      let p ← Program.read s
      let q ← Program.read t
      return p.followedBy q) ∧
    Program.read (String.ofList (withReturns s.toList)) = Program.read s ∧
    ((brokenLines s.toList).mapM readLine).map Program.ofLines = Program.read s := by
  refine ⟨?_, ?_, ?_⟩
  · have hseam : (s ++ "\n" ++ t).toList = s.toList ++ '\n' :: t.toList := by
      rw [String.toList_append, String.toList_append, List.append_assoc]
      rfl
    rw [Program.read, Program.read, Program.read, hseam, lines_append, List.mapM_append]
    rcases (lines s.toList).mapM readLine with e | first
    · rfl
    · rcases (lines t.toList).mapM readLine with e | second
      · rfl
      · exact congrArg Except.ok (Program.ofLines_append first second)
  · rw [Program.read, Program.read, String.toList_ofList,
      mapM_readLine_congr (lines_withReturns s.toList)]
  · rw [Program.read, mapM_readLine_congr (brokenLines_lines s.toList)]

end ChartScript
