import ChartScript.Proofs.Reading

/-!
# The one way in which reading fails

A line that makes no sense is dropped, and the lines around it do not notice. There is one exception:
a number literal that has digits and yet no value. Such a literal holds a digit sign, which looks like
a digit but has no place in a row of ten, or it is an integer of more digits than are converted
(`ChartScript.Number.Valueless`). It stops the reading of the whole source.

A literal does this only where the lexer gets to it (`ChartScript.Syntax.MeetsValueless`). It is out
of harm's way inside a string, behind a comment or behind a character that starts no token, and also
on a line that attempts no statement (`ChartScript.Syntax.attempt?`). A line on which it is met is
*blocked* (`ChartScript.Syntax.IsBlocked`).

What a line tells depends on that line alone (`ChartScript.Syntax.Tells`), and there is no second such
thing (`ChartScript.Syntax.Tells.unique`). The main result is
`ChartScript.Program.read_or_blocked`: a source without a blocked line is read as what its lines
tell, and no other source is read at all.
-/

namespace ChartScript.Number

open ChartScript.Text

/-! ### Values of literals -/

/-- **A literal without a value**: one of its digits has no place value, or it is an integer of too
many digits. -/
def Valueless (whole : List Char) (fraction : Option (List Char)) : Prop :=
  (∃ c ∈ whole ++ fraction.getD [], isDecimalDigit c = false) ∨
    fraction = none ∧ digitLimit < whole.length

theorem digitValues?_cons (c : Char) (text : List Char) :
    digitValues? (c :: text) = (digitValue? c).bind fun d => (digitValues? text).map (d :: ·) := by
  rw [digitValues?, List.mapM_cons]
  rcases digitValue? c with _ | d
  · rfl
  · rcases h : digitValues? text with _ | digits <;> rw [digitValues?] at h <;> simp [h]

/-- Only a text of decimal digits has digit values. -/
theorem digitValues?_eq_none {text : List Char} :
    digitValues? text = none ↔ ∃ c ∈ text, isDecimalDigit c = false := by
  induction text with
  | nil => simp [digitValues?]
  | cons c text ih =>
    rw [digitValues?_cons, List.exists_mem_cons_iff, isDecimalDigit, ← ih]
    rcases digitValue? c with _ | d <;> simp

/-- Every decimal digit has one value. -/
theorem length_of_digitValues? {text : List Char} {digits : List Nat}
    (h : digitValues? text = some digits) : digits.length = text.length := by
  induction text generalizing digits with
  | nil =>
    cases h
    rfl
  | cons c text ih =>
    rw [digitValues?_cons] at h
    obtain ⟨d, -, h⟩ := Option.bind_eq_some_iff.1 h
    obtain ⟨more, hmore, rfl⟩ := Option.map_eq_some_iff.1 h
    rw [List.length_cons, List.length_cons, ih hmore]

theorem literalInt?_eq_none {whole : List Char} (hne : whole ≠ []) :
    literalInt? whole = none ↔ Valueless whole none := by
  rw [Valueless, Option.getD_none, List.append_nil, ← digitValues?_eq_none, literalInt?]
  rcases hd : digitValues? whole with _ | digits
  · simp
  · have hlength := length_of_digitValues? hd
    have hdigits : digits ≠ [] := by
      rw [← List.length_pos_iff] at hne ⊢
      omega
    simp [hdigits, hlength]

theorem literalFloat?_eq_none {whole fraction : List Char} (hne : fraction ≠ []) :
    literalFloat? whole fraction = none ↔ Valueless whole (some fraction) := by
  rw [Valueless, Option.getD_some, ← digitValues?_eq_none, literalFloat?]
  rcases hd : digitValues? (whole ++ fraction) with _ | digits
  · simp
  · have hlength := length_of_digitValues? hd
    have hdigits : digits ≠ [] := by
      rw [List.length_append] at hlength
      rw [← List.length_pos_iff] at hne ⊢
      omega
    simp [hdigits]

end ChartScript.Number

namespace ChartScript.Syntax

open ChartScript.Text
open ChartScript.Grammar (lexed lexed_nil lexed_spacing lexed_comment lexed_error lexed_cons
  map_eq_ok bind_eq_ok)

/-! ### The literal at the start of a text -/

/-- A text starts with a number literal that has no value. -/
def StartsValueless (text : List Char) : Prop :=
  Number.Valueless (text.takeWhile isDigit) (fractionRest (text.dropWhile isDigit)).1

/-- A fraction has a digit. -/
theorem ne_nil_of_fractionRest {text fraction rest : List Char}
    (h : fractionRest text = (some fraction, rest)) : fraction ≠ [] := by
  revert h
  fun_cases fractionRest text with
  | case1 c more hc =>
    rintro ⟨⟩
    exact List.cons_ne_nil _ _
  | case2 | case3 => rintro ⟨⟩

/-- Where a number starts that has no fraction, there are digits before the point. -/
theorem takeWhile_ne_nil_of_startsNumber {c : Char} {rest after : List Char}
    (hs : startsNumber c rest) (hf : fractionRest ((c :: rest).dropWhile isDigit) = (none, after)) :
    (c :: rest).takeWhile isDigit ≠ [] := by
  by_cases hc : isDigit c
  · rw [List.takeWhile_cons_of_pos hc]
    simp
  · -- a point before a digit is a fraction
    simp only [startsNumber, hc, Bool.false_or, Bool.and_eq_true, beq_iff_eq] at hs
    obtain ⟨rfl, hdigit⟩ := hs
    rcases rest with _ | ⟨d, rest⟩
    · cases hdigit
    · rw [List.dropWhile_cons_of_neg hc, fractionRest, if_pos (by simpa using hdigit)] at hf
      cases hf

theorem cutNumber_eq_error {c : Char} {rest : List Char} (hs : startsNumber c rest)
    {e : LexError} :
    cutNumber (c :: rest) = .error e ↔ e = .unreadableNumber ∧ StartsValueless (c :: rest) := by
  rw [StartsValueless, cutNumber]
  rcases hf : fractionRest ((c :: rest).dropWhile isDigit) with ⟨_ | fraction, after⟩
  · simp only [← Number.literalInt?_eq_none (takeWhile_ne_nil_of_startsNumber hs hf)]
    rcases Number.literalInt? ((c :: rest).takeWhile isDigit) with _ | n <;> simp [eq_comm (a := e)]
  · simp only [← Number.literalFloat?_eq_none (ne_nil_of_fractionRest hf)]
    rcases Number.literalFloat? ((c :: rest).takeWhile isDigit) fraction with _ | x <;>
      simp [eq_comm (a := e)]

/-- No other lexeme than a number fails in this way. -/
theorem cut_eq_unreadable {column : Nat} {c : Char} {rest : List Char} :
    cut column c rest = .error .unreadableNumber ↔
      startsNumber c rest ∧ StartsValueless (c :: rest) := by
  rw [cut]
  split
  · rename_i hs
    rw [cutNumber_eq_error hs]
    simp [hs]
  · rename_i hs
    refine iff_of_false (fun h => ?_) fun h => hs h.1
    split at h
    · split at h <;> cases h
    · split at h
      · cases h
      · split at h <;> cases h

/-- What a lexeme is does not depend on its column. -/
theorem cut_column {column : Nat} {c : Char} {rest : List Char} {found : Cut}
    (h : cut column c rest = .ok found) (column' : Nat) : cut column' c rest = .ok found := by
  rw [cut] at h ⊢
  split at h <;> rename_i hs
  · rwa [if_pos hs]
  · rw [if_neg hs]
    split at h <;> rename_i hq
    · rw [if_pos hq]
      split at h
      · cases h
      · exact h
    · rw [if_neg hq]
      split at h <;> rename_i hn
      · rwa [if_pos hn]
      · rw [if_neg hn]
        split at h
        · exact h
        · cases h

/-! ### How far the lexer gets -/

/-- What the lexer comes to in a text, lexeme by lexeme, before it fails or is done. -/
inductive Reaches : List Char → List Char → Prop
  /-- The start of the text. -/
  | here (text : List Char) : Reaches text text
  /-- Spacing is passed over. -/
  | spacing {c : Char} {rest goal : List Char} : isSpacing c → Reaches rest goal →
      Reaches (c :: rest) goal
  /-- A lexeme is cut off where no comment starts. -/
  | lexeme {column : Nat} {c : Char} {rest goal : List Char} {found : Cut} : isSpacing c = false →
      startsComment c rest = false → cut column c rest = .ok found → Reaches found.rest goal →
      Reaches (c :: rest) goal

/-- The lexer comes to a number literal that has no value. -/
def MeetsValueless (text : List Char) : Prop :=
  ∃ c rest, Reaches text (c :: rest) ∧ startsNumber c rest ∧ StartsValueless (c :: rest)

/-- A number is neither spacing nor a comment. -/
theorem not_passed_of_startsNumber {c : Char} {rest : List Char} (hs : startsNumber c rest) :
    isSpacing c = false ∧ startsComment c rest = false := by
  simp only [startsNumber, Bool.or_eq_true, Bool.and_eq_true, beq_iff_eq] at hs
  rcases hs with hd | ⟨rfl, -⟩
  · have hne : ∀ d, isBasic d → d.isDigit = false → c ≠ d := by
      rintro d hb hd' rfl
      rw [isDigit_eq_isDigit hb, hd'] at hd
      cases hd
    simp [isSpacing, startsComment, hne ' ' (by decide) (by decide),
      hne '\t' (by decide) (by decide), hne '\r' (by decide) (by decide),
      hne '/' (by decide) (by decide)]
  · exact ⟨by decide, by simp [startsComment]⟩

theorem lexed_of_meetsValueless {text : List Char} (h : MeetsValueless text) (column : Nat) :
    lexed column text = .error .unreadableNumber := by
  obtain ⟨c, rest, hreach, hs, hv⟩ := h
  generalize hgoal : c :: rest = goal at hreach
  induction hreach generalizing column with
  | here text =>
    subst hgoal
    obtain ⟨hp, hc⟩ := not_passed_of_startsNumber hs
    exact lexed_error hp hc (cut_eq_unreadable.2 ⟨hs, hv⟩)
  | spacing hp _ ih =>
    rw [lexed_spacing hp]
    exact ih _ hgoal
  | lexeme hp hc hcut _ ih =>
    rw [lexed_cons hp hc (cut_column hcut column), ih _ hgoal]
    rfl

theorem meetsValueless_of_scanFrom {column : Nat} {text : List Char}
    (h : scanFrom column text = .error .unreadableNumber) : MeetsValueless text := by
  fun_induction scanFrom column text with
  | case1 | case3 | case6 => cases h
  | case2 column c rest hp ih =>
    obtain ⟨d, more, hreach, hd⟩ := ih h
    exact ⟨d, more, .spacing hp hreach, hd⟩
  | case4 column c rest hp hc e hcut =>
    cases h
    exact ⟨c, rest, .here _, cut_eq_unreadable.1 hcut⟩
  | case5 column c rest hp hc found hcut _ e hscan ih =>
    cases h
    obtain ⟨d, more, hreach, hd⟩ := ih hscan
    exact ⟨d, more, .lexeme (by simpa using hp) (by simpa using hc) hcut hreach, hd⟩

/-- **The lexer fails on a number if and only if it comes to one that has no value.** -/
theorem scanFrom_eq_unreadable {column : Nat} {text : List Char} :
    scanFrom column text = .error .unreadableNumber ↔ MeetsValueless text := by
  refine ⟨meetsValueless_of_scanFrom, fun h => ?_⟩
  have hlexed := lexed_of_meetsValueless h column
  rw [lexed] at hlexed
  rcases hs : scanFrom column text with e | scanned
  · rw [hs] at hlexed
    cases hlexed
    rfl
  · rw [hs] at hlexed
    cases hlexed

/-! ### Expressions -/

/-- What a text means as an expression: its lexemes spell the expression, within the bound on
nesting. -/
def Means (text : List Char) (n : Node) : Prop :=
  ∃ row, lexed 1 text = .ok row ∧ nesting row ≤ depthLimit ∧ Spells .sum row [n]

theorem Means.unique {text : List Char} {m n : Node} (hm : Means text m) (hn : Means text n) :
    m = n := by
  obtain ⟨row, hrow, -, hm⟩ := hm
  obtain ⟨row', hrow', -, hn⟩ := hn
  cases hrow.symm.trans hrow'
  exact hm.unique hn

theorem readExpression_eq_error {text : List Char} {e : UnreadableNumber} :
    readExpression text = .error e ↔ MeetsValueless text := by
  rw [← @scanFrom_eq_unreadable 1, readExpression, scan]
  rcases scanFrom 1 text with (⟨⟩ | ⟨⟩ | ⟨⟩) | scanned <;> simp

theorem readExpression_eq_some {text : List Char} {n : Node} :
    readExpression text = .ok (some n) ↔ Means text n := by
  refine ⟨of_readExpression_eq_some, fun ⟨row, hrow, hn, hs⟩ => ?_⟩
  rw [readExpression_of_lexed hrow, boundedExpression?, if_pos hn, expression?_eq_some_iff.2 hs]

/-! ### Lines -/

/-- The statement that a line attempts: the target, and the text of the expression. A line without a
target of its own attempts a call. -/
def attempt? (line : List Char) : Option (String × List Char) :=
  if line.isEmpty || isCommentLine line || isIndicatorLine line then none
  else
    match assignmentParts? line with
    | some (target, value) =>
      if String.ofList target = callTarget then none else some (String.ofList target, value)
    | none => if looksLikeCall line then some (callTarget, line) else none

/-- A line attempts a statement and has a literal without a value in its way. -/
def IsBlocked (line : List Char) : Prop :=
  ∃ target text, attempt? line = some (target, text) ∧ MeetsValueless text

/-- Whether an expression is nothing but a call. -/
def isCall (n : Node) : Bool := n matches .call _ _

/-- Whether an expression may go with a target: only a call stands without a target of its own. -/
def admits (target : String) (n : Node) : Bool := target != callTarget || isCall n

/-- **What a line tells**, where blanks at its ends are gone. -/
inductive Tells (line : List Char) : Line → Prop
  /-- An empty line and a comment tell nothing. -/
  | ignored : line.isEmpty || isCommentLine line → Tells line .ignored
  /-- An indicator line is kept as it is. -/
  | indicator : isIndicatorLine line → Tells line (.indicator (String.ofList line))
  /-- An attempt that makes sense is a statement. -/
  | statement {target : String} {text : List Char} {n : Node} : attempt? line = some (target, text) →
      Means text n → admits target n → Tells line (.statement { target, expr := n })
  /-- Any other line is dropped. -/
  | dropped : (line.isEmpty || isCommentLine line) = false → isIndicatorLine line = false →
      (∀ target text n, attempt? line = some (target, text) → Means text n → ¬ admits target n) →
      Tells line .dropped

variable {line : List Char}

theorem attempt?_eq_none (h : (line.isEmpty || isCommentLine line) ∨ isIndicatorLine line) :
    attempt? line = none := by
  rw [attempt?, if_pos (by simpa using h)]

/-- A line tells one thing only. -/
theorem Tells.unique {l l' : Line} (h : Tells line l) (h' : Tells line l') : l = l' := by
  cases h with
  | ignored hn =>
    cases h' with
    | ignored => rfl
    | indicator hi => simp [not_ignored_of_isIndicatorLine hi] at hn
    | statement ha => simp [attempt?_eq_none (.inl hn)] at ha
    | dropped hn' => simp [hn'] at hn
  | indicator hi =>
    cases h' with
    | ignored hn => simp [not_ignored_of_isIndicatorLine hi] at hn
    | indicator => rfl
    | statement ha => simp [attempt?_eq_none (.inr hi)] at ha
    | dropped _ hi' => simp [hi'] at hi
  | statement ha hm hadmits =>
    cases h' with
    | ignored hn => simp [attempt?_eq_none (.inl hn)] at ha
    | indicator hi => simp [attempt?_eq_none (.inr hi)] at ha
    | statement ha' hm' =>
      cases ha.symm.trans ha'
      rw [hm.unique hm']
    | dropped _ _ hno => exact absurd hadmits (hno _ _ _ ha hm)
  | dropped hn hi hno =>
    cases h' with
    | ignored hn' => simp [hn] at hn'
    | indicator hi' => simp [hi] at hi'
    | statement ha hm hadmits => exact absurd hadmits (hno _ _ _ ha hm)
    | dropped => rfl

/-- What a line says whose attempt is read as an expression, or is not. -/
def Line.ofAttempt (target : String) : Option Node → Line
  | some n => if admits target n then .statement { target, expr := n } else .dropped
  | none => .dropped

theorem tells_ofAttempt {target : String} {text : List Char} {n? : Option Node}
    (hn : (line.isEmpty || isCommentLine line) = false) (hi : isIndicatorLine line = false)
    (ha : attempt? line = some (target, text)) (hm : ∀ n, n? = some n ↔ Means text n) :
    Tells line (.ofAttempt target n?) := by
  have hdropped (h : ∀ n, n? = some n → ¬ admits target n) : Tells line .dropped := by
    refine .dropped hn hi fun target' text' n ha' hmeans => ?_
    cases ha.symm.trans ha'
    exact h n ((hm n).2 hmeans)
  rcases n? with _ | n
  · exact hdropped nofun
  · rw [Line.ofAttempt]
    split
    · rename_i hadmits
      exact .statement ha ((hm n).1 rfl) hadmits
    · rename_i hadmits
      refine hdropped fun n' hn' => ?_
      cases hn'
      exact hadmits

/-- A line with an attempt says what comes of the attempt. -/
theorem readTrimmedLine_attempt {target : String} {text : List Char}
    (ha : attempt? line = some (target, text)) :
    readTrimmedLine line = (readExpression text).map (.ofAttempt target) := by
  rw [attempt?] at ha
  split at ha
  · cases ha
  rename_i hform
  simp only [Bool.or_eq_true, not_or, Bool.not_eq_true] at hform
  obtain ⟨⟨hempty, hcomment⟩, hi⟩ := hform
  have hn : (line.isEmpty || isCommentLine line) = false := by rw [hempty, hcomment, Bool.or_false]
  split at ha
  · rename_i name value hparts
    split at ha
    · cases ha
    · rename_i ht
      cases ha
      rw [readTrimmedLine_assignment hn (by simp [hi]) hparts ht]
      rcases readExpression text with e | _ | n
      · rfl
      · rfl
      · simp [Except.map, Line.ofAttempt, admits, ht]
  · rename_i hparts
    split at ha
    · rename_i hcall
      cases ha
      rw [readTrimmedLine_call hn (by simp [hi]) hparts hcall]
      rcases readExpression line with e | _ | n
      · rfl
      · rfl
      · cases n <;> rfl
    · cases ha

/-- A line that attempts nothing is dropped, unless it is ignored or an indicator line. -/
theorem readTrimmedLine_no_attempt (hn : (line.isEmpty || isCommentLine line) = false)
    (hi : isIndicatorLine line = false) (ha : attempt? line = none) :
    readTrimmedLine line = .ok .dropped := by
  rw [attempt?, if_neg (by simp only [hn, hi]; decide)] at ha
  split at ha
  · rename_i target value hparts
    split at ha
    · rename_i ht
      exact readTrimmedLine_reserved hn (by simp [hi]) hparts ht
    · cases ha
  · rename_i hparts
    split at ha
    · cases ha
    · rename_i hcall
      exact readTrimmedLine_dropped hn (by simp [hi]) hparts (by simpa using hcall)

/-- **A line is blocked, or it is read as what it tells.** -/
theorem readTrimmedLine_or_blocked (line : List Char) :
    (readTrimmedLine line = .error .unreadableNumber ∧ IsBlocked line) ∨
      ∃ l, readTrimmedLine line = .ok l ∧ ¬ IsBlocked line ∧ Tells line l := by
  by_cases hn : line.isEmpty || isCommentLine line
  · refine .inr ⟨_, readTrimmedLine_ignored hn, ?_, .ignored hn⟩
    rintro ⟨target, text, ha, -⟩
    simp [attempt?_eq_none (.inl hn)] at ha
  rw [Bool.not_eq_true] at hn
  by_cases hi : isIndicatorLine line
  · refine .inr ⟨_, readTrimmedLine_indicator hi, ?_, .indicator hi⟩
    rintro ⟨target, text, ha, -⟩
    simp [attempt?_eq_none (.inr hi)] at ha
  rw [Bool.not_eq_true] at hi
  rcases ha : attempt? line with _ | ⟨target, text⟩
  · refine .inr ⟨_, readTrimmedLine_no_attempt hn hi ha, ?_, .dropped hn hi (by simp [ha])⟩
    rintro ⟨target, text, ha', -⟩
    simp [ha] at ha'
  rw [readTrimmedLine_attempt ha]
  rcases hr : readExpression text with e | n?
  · exact .inl ⟨rfl, target, text, ha, readExpression_eq_error.1 hr⟩
  · refine .inr ⟨_, rfl, ?_, tells_ofAttempt hn hi ha fun n => ?_⟩
    · rintro ⟨target', text', ha', hmeets⟩
      cases ha.symm.trans ha'
      cases hr.symm.trans (readExpression_eq_error (e := .unreadableNumber) |>.2 hmeets)
    · rw [← readExpression_eq_some, hr, Except.ok.injEq]

/-! ### Sources -/

/-- The first blocked line is met before any other can be. -/
theorem mapM_readLine_or_blocked (source : List (List Char)) :
    (source.mapM readLine = .error .unreadableNumber ∧ ∃ line ∈ source, IsBlocked (trim line)) ∨
      ∃ told, source.mapM readLine = .ok told ∧
        List.Forall₂ (fun line l => ¬ IsBlocked (trim line) ∧ Tells (trim line) l) source told :=
  Grammar.mapM_error_or fun line _ => readTrimmedLine_or_blocked (trim line)

end ChartScript.Syntax

namespace ChartScript

open ChartScript.Syntax ChartScript.Text

/-- **Reading fails only at a literal without a value.** Either some line is blocked and the source is
not read at all, or none is, and the source is read as what its lines tell, one by one. -/
theorem Program.read_or_blocked (source : String) :
    (Program.read source = .error .unreadableNumber ∧
        ∃ line ∈ lines source.toList, IsBlocked (trim line)) ∨
      ∃ told, Program.read source = .ok (.ofLines told) ∧
        List.Forall₂ (fun line l => ¬ IsBlocked (trim line) ∧ Tells (trim line) l)
          (lines source.toList) told := by
  rw [Program.read]
  obtain ⟨hr, hblocked⟩ | ⟨told, hr, htold⟩ := mapM_readLine_or_blocked (lines source.toList)
  · rw [hr]
    exact .inl ⟨rfl, hblocked⟩
  · rw [hr]
    exact .inr ⟨told, rfl, htold⟩

/-- A superscript two on one line loses the line behind it, which is read without it. -/
theorem Program.read_beside_superscript :
    Program.read "a = \u00b2\nb = 1" = .error .unreadableNumber ∧
      Program.read "b = 1" =
        .ok { indicators := [], assignments := [{ target := "b", expr := .number (.int 1) }] } := by
  with_unfolding_all exact ⟨rfl, rfl⟩

end ChartScript
