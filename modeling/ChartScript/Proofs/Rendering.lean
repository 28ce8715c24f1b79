import ChartScript.Proofs.Legible

/-!
# Expressions that are written are read again

The text of a legible expression is cut into a row of lexemes that spells the expression again, with
the arguments of its calls arranged (`ChartScript.Syntax.Legible.isRendered`). Three things are followed
through the text together, and the texts of the parts are put together with all three at once
(`ChartScript.Syntax.Written`):

* the text is cut into the row wherever it stands before something that goes on no name and no number
  (`ChartScript.Syntax.CutsInto`),
* the row spells the expression, as the level of binding that its outermost form has
  (`ChartScript.Syntax.formOf`),
* the text stays on one line and has no blanks at its ends (`ChartScript.Syntax.Tight`).

Parentheses stand where an operand would be read at too weak a level, so that what is written at one
level is always spelled at the level that its place demands (`ChartScript.Syntax.WritesAt.wrapped`).
-/

namespace ChartScript.Syntax

open ChartScript.Text
open ChartScript.Grammar (lexed lexed_cons lexed_spacing cut_of_mark cut_of_quote Clear isInLine)
open Datum (joined)
open Node (splitArgs)

/-! ### Cutting a text that is put together -/

/-- **A text is cut into a row** wherever it stands before something that goes on no name and no
number. -/
def CutsInto (text : List Char) (row : List Lexeme) : Prop :=
  ∀ rest, Clear rest → ∀ column, ∃ column',
    lexed column (text ++ rest) = (lexed column' rest).map (row ++ ·)

/-- A character that goes on no name and no number. -/
def IsStop (c : Char) : Prop := isWordChar c = false ∧ c ≠ '.'

theorem IsStop.clear {c : Char} (h : IsStop c) (rest : List Char) : Clear (c :: rest) := by
  rintro _ ⟨⟩
  exact h

theorem isStop_char (m : Mark) : IsStop m.char :=
  ⟨(not_isWordChar_char m).1, (not_isWordChar_char m).2.1⟩

theorem isBlank_space : isBlank ' ' := by
  simp [isBlank, blankCodes]

theorem isStop_space : IsStop ' ' :=
  ⟨isWordChar_of_isBlank isBlank_space, by decide⟩

theorem map_append_nil {ε : Type} (result : Except ε (List Lexeme)) :
    result.map ([] ++ ·) = result := by
  cases result <;> rfl

theorem map_append_append {ε : Type} (result : Except ε (List Lexeme)) (u v : List Lexeme) :
    (result.map (v ++ ·)).map (u ++ ·) = result.map (u ++ v ++ ·) := by
  cases result <;> simp [Except.map]

theorem cutsInto_nil : CutsInto [] [] :=
  fun rest _ column => ⟨column, by rw [map_append_nil]; rfl⟩

section CutsInto

variable {u v : List Char} {row row' : List Lexeme}

/-- A text may be put behind another if nothing in it goes on the other. -/
theorem CutsInto.append (hu : CutsInto u row) {c : Char} (hc : IsStop c)
    (hv : CutsInto (c :: v) row') : CutsInto (u ++ c :: v) (row ++ row') := by
  intro rest hr column
  obtain ⟨column', h⟩ := hu (c :: v ++ rest) (hc.clear _) column
  obtain ⟨column'', h'⟩ := hv rest hr column'
  exact ⟨column'', by rw [List.append_assoc, h, h', map_append_append]⟩

theorem CutsInto.space (h : CutsInto v row) : CutsInto (' ' :: v) row := by
  intro rest hr column
  obtain ⟨column', h⟩ := h rest hr (column + 1)
  exact ⟨column', by rw [List.cons_append, lexed_spacing (by decide), h]⟩

/-- One lexeme at the start of a text. -/
theorem lexed_of_cut {column : Nat} {c : Char} {rest : List Char} {found : Cut}
    (hs : isSpacing c = false) (hc : startsComment c rest = false)
    (h : cut column c rest = .ok found) : ∃ column',
      lexed column (c :: rest) = (lexed column' found.rest).map ([found.lexeme] ++ ·) :=
  ⟨_, lexed_cons hs hc h⟩

/-- A mark is cut off, but a slash only if none follows. -/
theorem lexed_mark (m : Mark) {rest : List Char} (h : startsComment m.char rest = false)
    (column : Nat) : ∃ column',
      lexed column (m.char :: rest) = (lexed column' rest).map ([.mark m] ++ ·) :=
  lexed_of_cut (by cases m <;> rfl) h (cut_of_mark m rest column)

theorem startsComment_char {m : Mark} (h : m ≠ .divide) (rest : List Char) :
    startsComment m.char rest = false := by
  cases m <;> first | rfl | exact absurd rfl h

theorem CutsInto.mark (hv : CutsInto v row) {m : Mark} (hm : m ≠ .divide) :
    CutsInto (m.char :: v) (.mark m :: row) := by
  intro rest hr column
  obtain ⟨column', h⟩ := lexed_mark m (startsComment_char hm (v ++ rest)) column
  obtain ⟨column'', h'⟩ := hv rest hr column'
  exact ⟨column'', by rw [List.cons_append, h, h', map_append_append]; rfl⟩

/-- Any mark may stand before a space. -/
theorem CutsInto.operator (hv : CutsInto v row) (m : Mark) :
    CutsInto (m.char :: ' ' :: v) (.mark m :: row) := by
  intro rest hr column
  -- the space keeps a slash from being the start of a comment
  have hs : startsComment m.char (' ' :: v ++ rest) = false := by
    cases m <;> rfl
  obtain ⟨column', h⟩ := lexed_mark m hs column
  obtain ⟨column'', h'⟩ := hv.space rest hr column'
  exact ⟨column'', by rw [List.cons_append, h, h', map_append_append]; rfl⟩

end CutsInto

/-! ### Words and strings -/

/-- A word character is passed over by nothing. -/
theorem not_passed {c : Char} (h : isWordChar c) (rest : List Char) :
    isSpacing c = false ∧ startsComment c rest = false := by
  constructor
  · rw [Bool.eq_false_iff]
    intro hs
    have hb : isBlank c := isBlank_of_isPadding (by
      simp only [isSpacing, Bool.or_eq_true, beq_iff_eq] at hs
      simp only [Grammar.isPadding, Bool.or_eq_true, beq_iff_eq]
      tauto)
    rw [isWordChar_of_isBlank hb] at h
    cases h
  · rw [Bool.eq_false_iff]
    intro hs
    simp only [startsComment, Bool.and_eq_true, beq_iff_eq] at hs
    rw [hs.1, isWordChar_eq_isNameChar (by decide)] at h
    exact absurd h (by decide)

theorem isWordChar_of_isNameStart {c : Char} (h : isNameStart c) : isWordChar c := by
  rw [← Bool.not_eq_false]
  intro hw
  rw [not_isNameStart_of_not_isWordChar hw] at h
  cases h

/-- A name ends where nothing goes on. -/
theorem nameRest_append_clear {name rest : List Char} (h : nameRest name = (name, []))
    (hr : Clear rest) : nameRest (name ++ rest) = (name, rest) := by
  fun_induction nameRest name with
  | case1 c more hc name after heq ih =>
    rw [heq] at ih
    obtain ⟨rfl, rfl⟩ : name = more ∧ after = [] := by simpa using h
    rw [List.cons_append, List.cons_append, nameRest, if_pos hc, ih rfl]
  | case2 | case4 => simp at h
  | case3 c more hne hc name after heq ih =>
    rw [heq] at ih
    obtain ⟨rfl, rfl⟩ : name = more ∧ after = [] := by simpa using h
    rw [List.cons_append, nameRest, if_pos hc, ih rfl]
    exact fun d after h => absurd h (ne_point_of_isWordChar hc)
  | case5 =>
    rcases rest with _ | ⟨d, rest⟩
    · rfl
    · have hd := hr d rfl
      rw [List.nil_append, nameRest, if_neg (by simp [hd.1])]
      exact fun e more h => absurd h hd.2

theorem cutsInto_name {s : String} (h : IsName s) : CutsInto s.toList [.name s] := by
  obtain ⟨c, name, heq, hc, hd, hn⟩ := h
  intro rest hr column
  have hw := isWordChar_of_isNameStart hc
  have hpoint := ne_point_of_isWordChar hw
  have hquote : ¬ (c = '"' ∨ c = '\'') := fun hq => by
    rw [(Grammar.IsQuote.not_isWordChar hq).1] at hw
    cases hw
  have hs : String.ofList (c :: name) = s := by
    rw [← heq, String.ofList_toList]
  have hcut : cut column c (name ++ rest) =
      .ok { lexeme := .name s, raw := c :: name, rest := rest } := by
    rw [cut, if_neg (by simp [startsNumber, hd, hpoint]), if_neg (by simpa using hquote), if_pos hc,
      nameRest_append_clear hn hr]
    simp only [hs]
  rw [heq]
  have hpass := not_passed hw (name ++ rest)
  exact lexed_of_cut hpass.1 hpass.2 hcut

section Digits

variable {whole : List Char} (hne : whole ≠ []) (hd : ∀ c ∈ whole, c.isDigit)

include hne hd

/-- Digits are cut off as a number. -/
theorem lexed_digits {rest : List Char} {found : Cut} (h : cutNumber (whole ++ rest) = .ok found)
    (column : Nat) : ∃ column',
      lexed column (whole ++ rest) = (lexed column' found.rest).map ([found.lexeme] ++ ·) := by
  obtain ⟨c, whole, rfl⟩ := List.exists_cons_of_ne_nil hne
  have hc := hd c List.mem_cons_self
  have hdigit := isDigit_of_basic hc
  have hpass := not_passed (isWordChar_of_isDigit hdigit) (whole ++ rest)
  refine lexed_of_cut hpass.1 hpass.2 ?_
  rw [cut, if_pos (by simp [startsNumber, hdigit])]
  exact h

end Digits

theorem cutsInto_int {n : Nat} (h : n < 10 ^ Number.digitLimit) :
    CutsInto (Number.natText n) [.int n] := by
  intro rest hr column
  obtain ⟨hw, hrest⟩ := takeWhile_append_stop
    (fun c hc => isDigit_of_basic (@Number.isDigit_of_mem_natText n c hc)) hr.not_isDigit
  have hfraction : fractionRest rest = (none, rest) := by
    rcases rest with _ | ⟨c, rest⟩
    · rfl
    · exact fractionRest.eq_2 _ fun d more heq => (hr c rfl).2 (List.cons.inj heq).1
  have hcut : cutNumber (Number.natText n ++ rest) =
      .ok { lexeme := .int n, raw := Number.natText n, rest := rest } := by
    rw [cutNumber, hrest, hfraction]
    simp only [hw, Number.literalInt?_natText h]
  exact lexed_digits Nat.toDigits_ne_nil Number.isDigit_of_mem_natText hcut column

theorem cutsInto_float {x : Float} {text whole fraction : List Char}
    (h : Number.Pointed text whole fraction) (hx : Number.literalFloat? whole fraction = some x) :
    CutsInto text [.float x] := by
  intro rest hr column
  have hpoint : ∀ c ∈ ('.' :: fraction ++ rest).head?, isDigit c = false := by
    rintro c ⟨⟩
    rw [isDigit_eq_isDigit (by decide)]
    rfl
  obtain ⟨hw, hrest⟩ :=
    takeWhile_append_stop (fun c hc => isDigit_of_basic (h.isDigit_whole c hc)) hpoint
  obtain ⟨hf, hrest'⟩ :=
    takeWhile_append_stop (fun c hc => isDigit_of_basic (h.isDigit_fraction c hc)) hr.not_isDigit
  -- the point belongs to the number only because a digit follows it
  have hfraction : fractionRest ('.' :: fraction ++ rest) = (some fraction, rest) := by
    obtain ⟨c, more, rfl⟩ := List.exists_cons_of_ne_nil h.fraction_ne_nil
    have hc := isDigit_of_basic (h.isDigit_fraction c List.mem_cons_self)
    rw [List.cons_append, List.takeWhile_cons_of_pos hc] at hf
    rw [List.cons_append, List.dropWhile_cons_of_pos hc] at hrest'
    rw [List.cons_append, List.cons_append, fractionRest, if_pos hc, hf, hrest']
  have hcut : cutNumber (whole ++ ('.' :: fraction ++ rest)) =
      .ok { lexeme := .float x, raw := whole ++ '.' :: fraction, rest := rest } := by
    rw [cutNumber, hrest, hfraction]
    simp only [hw, hx]
  rw [h.eq, List.append_assoc]
  exact lexed_digits h.whole_ne_nil h.isDigit_whole hcut column

/-- **A string literal is cut off where it ends**, whatever follows. -/
theorem cut_string (s : String) (rest : List Char) (column : Nat) :
    cut column '"' (escape s.toList ++ '"' :: rest) =
      .ok { lexeme := .string s, raw := stringLiteral s.toList, rest := rest } := by
  rw [cut_of_quote (.inl rfl), stringBody?_escape]
  simp only [unescape_escape, String.ofList_toList]
  rfl

theorem stringLiteral_append (s : String) (rest : List Char) :
    stringLiteral s.toList ++ rest = '"' :: (escape s.toList ++ '"' :: rest) := by
  rw [stringLiteral, List.append_assoc, List.cons_append]
  rfl

theorem cutsInto_string (s : String) : CutsInto (stringLiteral s.toList) [.string s] := by
  intro rest _ column
  rw [stringLiteral_append]
  exact lexed_of_cut (by decide) (by rfl) (cut_string s rest column)

/-! ### The ends of a text -/

/-- **A text on one line, without blanks at its ends.** -/
structure Tight (text : List Char) : Prop where
  /-- There is a text. -/
  ne_nil : text ≠ []
  /-- It starts with no blank. -/
  head : ∀ c ∈ text.head?, isBlank c = false
  /-- It ends with no blank. -/
  last : ∀ c ∈ text.getLast?, isBlank c = false
  /-- It has no line break. -/
  line : text.all isInLine

theorem isInLine_of_not_isBlank {c : Char} (h : isBlank c = false) : isInLine c := by
  rw [isInLine, bne_iff_ne]
  rintro rfl
  rw [isBlank_newline] at h
  cases h

theorem tight_of_no_blank {text : List Char} (hne : text ≠ []) (h : ∀ c ∈ text, isBlank c = false) :
    Tight text :=
  ⟨hne, fun c hc => h c (List.mem_of_mem_head? hc), fun c hc => h c (List.mem_of_getLast? hc),
    List.all_eq_true.2 fun c hc => isInLine_of_not_isBlank (h c hc)⟩

/-- The ends of a text are those of its first and its last part. -/
theorem Tight.append {u v mid : List Char} (hu : Tight u) (hm : mid.all isInLine) (hv : Tight v) :
    Tight (u ++ (mid ++ v)) := by
  refine ⟨by simp [hu.ne_nil], ?_, ?_, ?_⟩
  · rw [List.head?_append_of_ne_nil _ hu.ne_nil]
    exact hu.head
  · rw [List.getLast?_append_of_ne_nil _ (by simp [hv.ne_nil]),
      List.getLast?_append_of_ne_nil _ hv.ne_nil]
    exact hv.last
  · rw [List.all_append, List.all_append, hu.line, hm, hv.line]
    rfl

theorem not_isBlank_char (m : Mark) : isBlank m.char = false := by
  rw [← Bool.not_eq_true]
  refine not_isBlank ?_
  cases m <;> decide

theorem tight_mark (m : Mark) : Tight [m.char] :=
  tight_of_no_blank (by simp) (by simp [not_isBlank_char])

/-- Word characters and points are no blanks. -/
theorem not_isBlank_of_isWordChar {c : Char} (h : isWordChar c ∨ c = '.') : isBlank c = false := by
  rw [← Bool.not_eq_true]
  intro hb
  rcases h with h | rfl
  · rw [isWordChar_of_isBlank hb] at h
    cases h
  · exact not_isBlank (by decide) hb

/-- A name is made of word characters and points. -/
theorem mem_of_nameRest (text : List Char) :
    ∀ c ∈ (nameRest text).1, isWordChar c ∨ c = '.' := by
  fun_induction nameRest text with
  | case1 c rest hc name after heq ih =>
    rw [heq] at ih
    exact List.forall_mem_cons.2
      ⟨.inr rfl, List.forall_mem_cons.2 ⟨.inl (isWordChar_of_isNameStart hc), ih⟩⟩
  | case2 | case4 | case5 => simp
  | case3 c rest hne hc name after heq ih =>
    rw [heq] at ih
    exact List.forall_mem_cons.2 ⟨.inl hc, ih⟩

theorem IsName.mem {s : String} (h : IsName s) : ∀ c ∈ s.toList, isWordChar c ∨ c = '.' := by
  obtain ⟨c, rest, heq, hc, -, hn⟩ := h
  have := mem_of_nameRest rest
  rw [hn] at this
  rw [heq]
  exact List.forall_mem_cons.2 ⟨.inl (isWordChar_of_isNameStart hc), this⟩

theorem tight_name {s : String} (h : IsName s) : Tight s.toList := by
  refine tight_of_no_blank ?_ fun c hc => not_isBlank_of_isWordChar (h.mem c hc)
  obtain ⟨c, rest, heq, -⟩ := h
  rw [heq]
  exact List.cons_ne_nil _ _

theorem tight_int (n : Nat) : Tight (Number.natText n) :=
  tight_of_no_blank Nat.toDigits_ne_nil fun c hc => not_isBlank_of_isWordChar
    (.inl (isWordChar_of_isDigit (isDigit_of_basic (Number.isDigit_of_mem_natText c hc))))

theorem tight_float {text whole fraction : List Char} (h : Number.Pointed text whole fraction) :
    Tight text := by
  refine tight_of_no_blank (by simp [h.eq]) fun c hc => not_isBlank_of_isWordChar ?_
  exact (h.isDigit_or c hc).imp_left fun hd => isWordChar_of_isDigit (isDigit_of_basic hd)

theorem isInLine_escape (text : List Char) : (escape text).all isInLine := by
  rw [escape, List.all_flatMap, List.all_eq_true]
  intro c _
  rw [escapeChar]
  split
  · rfl
  · split
    · rfl
    · split
      · rename_i hc
        simp only [Bool.or_eq_true, decide_eq_true_eq] at hc
        rcases hc with rfl | rfl <;> rfl
      · rename_i hn _ _
        simpa [isInLine] using hn

theorem tight_string (s : String) : Tight (stringLiteral s.toList) := by
  have hquote : Tight ['"'] := by
    refine tight_of_no_blank (by simp) fun c hc => ?_
    rw [List.mem_singleton.1 hc, ← Bool.not_eq_true]
    exact not_isBlank (by decide)
  exact hquote.append (isInLine_escape s.toList) hquote

/-! ### Texts that are put together -/

/-- **A text that is cut into a row** of which something is known, and that stays what it is on a line
of its own. -/
structure Written (S : List Lexeme → Prop) (text : List Char) : Prop where
  /-- The text is on one line. -/
  tight : Tight text
  /-- The row is as it is known to be. -/
  cut : ∃ row, CutsInto text row ∧ S row

section Written

variable {S S' S'' : List Lexeme → Prop} {u v : List Char}

theorem Written.imp (h : Written S u) (hs : ∀ row, S row → S' row) : Written S' u := by
  obtain ⟨ht, row, hc, hr⟩ := h
  exact ⟨ht, row, hc, hs row hr⟩

theorem written_name {s : String} (h : IsName s) : Written (· = [.name s]) s.toList :=
  ⟨tight_name h, _, cutsInto_name h, rfl⟩

theorem written_mark {m : Mark} (hm : m ≠ .divide) : Written (· = [.mark m]) [m.char] :=
  ⟨tight_mark m, _, cutsInto_nil.mark hm, rfl⟩

/-- A text stands behind another. -/
theorem Written.append (hu : Written S u) {c : Char} (hc : IsStop c) (hv : Written S' (c :: v))
    (hs : ∀ row row', S row → S' row' → S'' (row ++ row')) : Written S'' (u ++ c :: v) := by
  obtain ⟨ht, row, hcut, hr⟩ := hu
  obtain ⟨ht', row', hcut', hr'⟩ := hv
  exact ⟨@Tight.append u (c :: v) [] ht rfl ht', _, hcut.append hc hcut', hs row row' hr hr'⟩

/-- A mark stands before a text. -/
theorem Written.behind (hu : Written S u) {m : Mark} (hm : m ≠ .divide)
    (hs : ∀ row, S row → S' (.mark m :: row)) : Written S' (m.char :: u) := by
  obtain ⟨ht, row, hc, hr⟩ := hu
  exact ⟨@Tight.append [m.char] u [] (tight_mark m) rfl ht, _, hc.mark hm, hs row hr⟩

/-- A text stands between two marks. -/
theorem Written.between (hu : Written S u) (m m' : Mark) (hm : m ≠ .divide) (hm' : m' ≠ .divide)
    (hs : ∀ row, S row → S' (.mark m :: (row ++ [.mark m']))) :
    Written S' (m.char :: u ++ [m'.char]) := by
  have hclosed : Written (fun row => S' (.mark m :: row)) (u ++ [m'.char]) :=
    hu.append (isStop_char m') (written_mark hm') fun row row' hr hr' => by
      rw [hr']
      exact hs row hr
  exact hclosed.behind hm fun _ hr => hr

/-- A text stands between two braces with spaces inside. -/
theorem Written.inBraces (hu : Written S u)
    (hs : ∀ row, S row → S' (.mark .leftBrace :: (row ++ [.mark .rightBrace]))) :
    Written S' ("\x7b ".toList ++ u ++ " \x7d".toList) := by
  obtain ⟨ht, row, hc, hr⟩ := hu
  have hclosed := hc.append isStop_space (cutsInto_nil.mark (m := .rightBrace) nofun).space
  have hin : (' ' :: u ++ [' ']).all isInLine := by
    simp [ht.line, isInLine]
  refine ⟨?_, _, hclosed.operator .leftBrace, hs row hr⟩
  have := (tight_mark .leftBrace).append hin (tight_mark .rightBrace)
  simpa [Mark.char] using this

/-- An operator stands between two operands. -/
theorem Written.operator (hu : Written S u) (m : Mark) (hv : Written S' v)
    (hs : ∀ row row', S row → S' row' → S'' (row ++ .mark m :: row')) :
    Written S'' (u ++ ' ' :: m.char :: ' ' :: v) := by
  obtain ⟨ht, row, hc, hr⟩ := hu
  obtain ⟨ht', row', hc', hr'⟩ := hv
  refine ⟨@Tight.append u v [' ', m.char, ' '] ht ?_ ht', _,
    hc.append isStop_space (hc'.operator m).space, hs row row' hr hr'⟩
  rw [List.all_cons, List.all_cons, isInLine_of_not_isBlank (not_isBlank_char m)]
  rfl

/-- A mark and a space stand between two texts. -/
theorem Written.separated (hu : Written S u) (m : Mark) (hv : Written S' v)
    (hs : ∀ row row', S row → S' row' → S'' (row ++ .mark m :: row')) :
    Written S'' (u ++ m.char :: ' ' :: v) := by
  obtain ⟨ht, row, hc, hr⟩ := hu
  obtain ⟨ht', row', hc', hr'⟩ := hv
  refine ⟨@Tight.append u v [m.char, ' '] ht ?_ ht', _,
    hc.append (isStop_char m) (hc'.operator m), hs row row' hr hr'⟩
  rw [List.all_cons, isInLine_of_not_isBlank (not_isBlank_char m)]
  rfl

end Written

/-! ### Lists -/

theorem joined_cons (separator text : List Char) {texts : List (List Char)} (h : texts ≠ []) :
    joined separator (text :: texts) = text ++ (separator ++ joined separator texts) := by
  obtain ⟨next, texts, rfl⟩ := List.exists_cons_of_ne_nil h
  simp [joined, List.intersperse]

theorem joined_singleton (separator text : List Char) : joined separator [text] = text := by
  simp [joined]

/-- A text that spells an expression. -/
def Writes (text : List Char) (t : Node) : Prop := Written (Spells .sum · [t]) text

section Lists

variable {texts : List (List Char)} {ts : List Node}

theorem written_items (h : List.Forall₂ Writes texts ts) (hne : texts ≠ []) :
    Written (Spells .items · ts) (joined [',', ' '] texts) := by
  induction h with
  | nil => exact absurd rfl hne
  | @cons text t texts ts ht h ih =>
    rcases eq_or_ne texts [] with rfl | hne
    · cases h
      rw [joined_singleton]
      exact ht.imp fun _ => .lastItem
    · rw [joined_cons _ _ hne]
      exact ht.separated .comma (ih hne) fun _ _ => .item

/-- Positional arguments, and perhaps options behind them. -/
theorem written_arguments (h : List.Forall₂ Writes texts ts) {options : List (List Char)}
    {pairs : List Node} (ho : (options = [] ∧ pairs = []) ∨
      ∃ text, options = [text] ∧ Written (Spells .options · pairs) text)
    (hne : texts ++ options ≠ []) :
    Written (Spells .arguments · (ts ++ pairs)) (joined [',', ' '] (texts ++ options)) := by
  induction h with
  | nil =>
    rcases ho with ⟨rfl, -⟩ | ⟨text, rfl, ho⟩
    · exact absurd rfl hne
    · show Written _ (joined [',', ' '] [text])
      rw [joined_singleton]
      exact ho.imp fun _ => .lastOptions
  | @cons text t texts ts ht h ih =>
    rcases eq_or_ne (texts ++ options) [] with hnil | hne
    · obtain ⟨rfl, rfl⟩ := List.append_eq_nil_iff.1 hnil
      obtain rfl : pairs = [] := by
        rcases ho with ⟨-, rfl⟩ | ⟨text, ho, -⟩
        · rfl
        · cases ho
      cases h
      show Written _ (joined [',', ' '] [text])
      rw [joined_singleton]
      exact ht.imp fun _ hr => .lastArgument (.positional hr)
    · show Written _ (joined [',', ' '] (text :: (texts ++ options)))
      rw [joined_cons _ _ hne]
      exact ht.separated .comma (ih hne) fun _ _ hr => .argument (.positional hr)

/-- An option is a key and an expression. -/
theorem written_option {k : String} (hk : IsName k) {S S' : List Lexeme → Prop} {u : List Char}
    (h : Written S u) (hs : ∀ row, S row → S' (.name k :: .mark .colon :: row)) :
    Written S' (k.toList ++ ':' :: ' ' :: u) :=
  (written_name hk).separated .colon h fun row row' hr hr' => by
    rw [hr]
    exact hs row' hr'

/-- The text of an option that spells a marker and a value. -/
def WritesEntry (text : String × List Char) (entry : String × Node) : Prop :=
  text.1 = entry.1 ∧ IsName entry.1 ∧ Writes text.2 entry.2

theorem written_entries {named : List (String × List Char)} {entries : List (String × Node)}
    (h : List.Forall₂ WritesEntry named entries) (hne : named ≠ []) :
    Written (Spells .entries · (entries.flatMap fun e => Node.pair e.1 e.2))
      (joined [',', ' '] (named.map optionText)) := by
  induction h with
  | nil => exact absurd rfl hne
  | @cons text entry named entries he h ih =>
    obtain ⟨k, text⟩ := text
    obtain ⟨k', t⟩ := entry
    obtain ⟨rfl, hk, ht⟩ : k = k' ∧ IsName k' ∧ Writes text t := he
    rcases eq_or_ne named [] with rfl | hne
    · cases h
      rw [List.map_singleton, joined_singleton, List.flatMap_singleton]
      exact written_option hk ht fun _ => .lastEntry k
    · have hmore : Written
          (fun row => Spells .entries (.name k :: .mark .colon :: row)
            (Node.pair k t ++ entries.flatMap fun e => Node.pair e.1 e.2))
          (text ++ ',' :: ' ' :: joined [',', ' '] (named.map optionText)) :=
        ht.separated .comma (ih hne) fun _ _ => .entry k
      rw [List.map_cons, joined_cons _ _ (by simpa using hne), optionText, List.append_assoc]
      exact written_option hk hmore fun _ hr => hr

end Lists

/-! ### Levels of binding -/

/-- The level at which an expression of a strength is read. -/
def formOf : Nat → Form
  | 0 | 1 => .sum
  | 2 => .product
  | 3 => .power
  | 4 => .signed
  | _ => .subscripted

/-- What is read at a strong level is read at a weaker one. -/
theorem Spells.weaken {d s : Nat} (h : d ≤ s) {row : List Lexeme} {t : Node}
    (hs : Spells (formOf s) row [t]) : Spells (formOf d) row [t] := by
  induction h with
  | refl => exact hs
  | @step s _ ih =>
    refine ih ?_
    match s with
    | 0 => exact hs
    | 1 => exact .term hs
    | 2 => exact .factor hs
    | 3 => exact .base hs
    | 4 => exact .unsigned hs
    -- there is nothing stronger than a subscripted expression
    | _ + 5 => exact hs

/-- A text that spells an expression at the level of a strength. -/
def WritesAt (s : Nat) (text : List Char) (t : Node) : Prop :=
  Written (Spells (formOf s) · [t]) text

theorem WritesAt.writes {s : Nat} {text : List Char} {t : Node} (h : WritesAt s text t) :
    Writes text t :=
  h.imp fun _ => Spells.weaken (Nat.zero_le s)

/-- **An operand is written so that it is read at the level that its place demands.** -/
theorem WritesAt.wrapped {n t : Node} {text : List Char} (h : WritesAt (strength n) text t)
    {demanded : Nat} (hd : demanded ≤ 5) : WritesAt demanded (wrapped demanded n text) t := by
  rw [Syntax.wrapped]
  split
  · -- parentheses are read at the strongest level, and so at every other
    refine Written.between h.writes .leftParen .rightParen nofun nofun fun row hr => ?_
    exact @Spells.weaken _ 5 hd _ _ (.plain (.parentheses hr))
  · rename_i hle
    exact h.imp fun _ => Spells.weaken (Nat.le_of_not_lt hle)

/-- What the operator of a sum is. -/
theorem of_sumOperator? {m : Mark} {op : String} (h : sumOperator? m = some op) :
    op.toList = [m.char] ∧ m ≠ .divide ∧ operatorStrength? op = some 1 ∧ demands op 1 = (1, 2) := by
  cases m <;> cases h <;> exact ⟨rfl, nofun, rfl, rfl⟩

/-- What the operator of a product is. -/
theorem of_productOperator? {m : Mark} {op : String} (h : productOperator? m = some op) :
    op.toList = [m.char] ∧ operatorStrength? op = some 2 ∧ demands op 2 = (2, 3) := by
  cases m <;> cases h <;> exact ⟨rfl, rfl, rfl⟩

/-! ### Calls -/

theorem written_options {named : List (String × List Char)} {entries : List (String × Node)}
    (h : List.Forall₂ WritesEntry named entries) (hne : named ≠ []) :
    Written (Spells .options · (entries.flatMap fun e => Node.pair e.1 e.2))
      (optionsText (named.map optionText)) :=
  (written_entries h hne).inBraces fun _ => .options

/-- **A call is written with its options behind its positional arguments.** -/
theorem written_call {f : String} (hf : IsName f) {texts : List (List Char)} {ts : List Node}
    (h : List.Forall₂ Writes texts ts) {named : List (String × List Char)}
    {entries : List (String × Node)} (he : List.Forall₂ WritesEntry named entries) :
    Written (Spells .primary · [.call f (Node.joinArgs ts entries)]) (callText f texts named) := by
  obtain ⟨options, hoptions⟩ : ∃ options, options =
      if named.isEmpty then [] else [optionsText (named.map optionText)] := ⟨_, rfl⟩
  have ho : (options = [] ∧ entries.flatMap (fun e => Node.pair e.1 e.2) = []) ∨
      ∃ text, options = [text] ∧
        Written (Spells .options · (entries.flatMap fun e => Node.pair e.1 e.2)) text := by
    rcases eq_or_ne named [] with rfl | hne
    · cases he
      exact .inl ⟨hoptions, rfl⟩
    · exact .inr ⟨_, by simpa [hne] using hoptions, written_options he hne⟩
  have htext : callText f texts named =
      f.toList ++ '(' :: (joined [',', ' '] (texts ++ options) ++ [')']) := by
    rw [callText, ← hoptions, List.append_assoc]
    rfl
  rw [htext]
  rcases eq_or_ne (texts ++ options) [] with hnil | hne
  · obtain ⟨rfl, rfl⟩ := List.append_eq_nil_iff.1 hnil
    have hargs : Node.joinArgs ts entries = [] := by
      cases h
      rcases ho with ⟨-, ho⟩ | ⟨text, ho, -⟩
      · exact ho
      · cases ho
    rw [hargs]
    have hclosed : Written (· = [.mark .leftParen, .mark .rightParen]) ['(', ')'] :=
      (written_mark (m := .rightParen) nofun).behind (m := .leftParen) nofun fun row hr => by rw [hr]
    refine (written_name hf).append (isStop_char .leftParen) hclosed fun row row' hr hr' => ?_
    rw [hr, hr']
    exact .noArguments f
  · -- the name is the first lexeme of the rule, so it is put before what is known of the rest
    have hclosed : Written (fun row => Spells .primary (.name f :: row)
        [.call f (Node.joinArgs ts entries)]) ('(' :: joined [',', ' '] (texts ++ options) ++ [')']) :=
      (written_arguments h ho hne).between .leftParen .rightParen nofun nofun fun _ => .call f
    refine (written_name hf).append (isStop_char .leftParen) hclosed fun row row' hr hr' => ?_
    rw [hr]
    exact hr'

/-! ### Expressions -/

/-- A literal, a name, a list and a call bind as strongly as anything. -/
theorem writesAt_of_primary {text : List Char} {t : Node}
    (h : Written (Spells .primary · [t]) text) : WritesAt primaryStrength text t :=
  h.imp fun _ => .plain

/-- What is written of an expression. -/
def IsRendered (n : Node) : Prop :=
  ∃ text, n.render = .ok text ∧ WritesAt (strength n) text n.arranged

/-- Two operands are written with an operator between them. -/
theorem IsRendered.binary {l r : Node} (hl : IsRendered l) (hr : IsRendered r) {m : Mark}
    {op : String} {own atLeft atRight : Nat} (hop : op.toList = [m.char])
    (hstrength : operatorStrength? op = some own) (hdemands : demands op own = (atLeft, atRight))
    (hle : atLeft ≤ 5 ∧ atRight ≤ 5)
    (hs : ∀ row row', Spells (formOf atLeft) row [l.arranged] →
      Spells (formOf atRight) row' [r.arranged] →
      Spells (formOf own) (row ++ .mark m :: row') [.binary op l.arranged r.arranged]) :
    IsRendered (.binary op l r) := by
  obtain ⟨text, hl, hw⟩ := hl
  obtain ⟨text', hr, hw'⟩ := hr
  refine ⟨wrapped atLeft l text ++ ' ' :: m.char :: ' ' :: wrapped atRight r text', ?_, ?_⟩
  · rw [Node.render, hstrength]
    simp only [hdemands, hl, hr, hop]
    exact congrArg Except.ok (by simp)
  · rw [strength, hstrength, Node.arranged]
    exact Written.operator (hw.wrapped hle.1) m (hw'.wrapped hle.2) hs

/-- A subscript stands in brackets behind its target. -/
theorem IsRendered.index {t i : Node} (ht : IsRendered t) (hi : IsRendered i) :
    IsRendered (.index t i) := by
  obtain ⟨text, hr, hw⟩ := ht
  obtain ⟨text', hr', hw'⟩ := hi
  refine ⟨_, by rw [Node.render, hr, hr']; rfl, ?_⟩
  have hclosed : Written (fun row => ∃ row', row = .mark .leftBracket ::
      (row' ++ [.mark .rightBracket]) ∧ Spells .sum row' [i.arranged]) ('[' :: text' ++ [']']) :=
    hw'.writes.between .leftBracket .rightBracket (by decide) (by decide)
      fun row h => ⟨row, rfl, h⟩
  rw [Node.arranged, List.append_assoc]
  refine Written.append (hw.wrapped (Nat.le_refl 5)) (isStop_char .leftBracket) hclosed ?_
  rintro row _ hrow ⟨row', rfl, hrow'⟩
  exact .subscript hrow hrow'

/-- A sign stands before its operand. -/
theorem IsRendered.unary {m : Mark} {op : String} (hm : sumOperator? m = some op) {t : Node}
    (ht : IsRendered t) : IsRendered (.unary op t) := by
  obtain ⟨text, hr, hw⟩ := ht
  obtain ⟨hop, hne, -, -⟩ := of_sumOperator? hm
  refine ⟨_, by rw [Node.render, hr]; rfl, ?_⟩
  rw [Node.arranged, hop]
  exact Written.behind (hw.wrapped (by decide)) hne fun _ => .signed hm

/-- Items are written one after the other, as positional arguments are. -/
theorem renderAll_eq_mapM (ts : List Node) : Node.renderAll ts = (ts.map Node.render).mapM id := by
  induction ts with
  | nil =>
    rw [Node.renderAll]
    rfl
  | cons t ts ih =>
    rw [Node.renderAll, List.map_cons, List.mapM_cons, ih]
    rfl

theorem mapM_render_of_forall {ts : List Node} (h : ∀ t ∈ ts, IsRendered t) :
    ∃ texts, (ts.map Node.render).mapM id = .ok texts ∧
      List.Forall₂ Writes texts (ts.map Node.arranged) := by
  have hwrites : ∀ t ∈ ts, ∃ text, t.render = .ok text ∧ Writes text t.arranged := fun t ht =>
    (h t ht).imp fun _ h => ⟨h.1, h.2.writes⟩
  obtain ⟨texts, hr, hw⟩ := Grammar.exists_mapM_eq_ok hwrites
  exact ⟨texts, by rwa [List.mapM_map], List.forall₂_map_right_iff.2 hw.flip⟩

/-- A list is its items between brackets, and the empty list has a rule of its own. -/
theorem IsRendered.array {items : List Node} (h : ∀ t ∈ items, IsRendered t) :
    IsRendered (.array items) := by
  obtain ⟨texts, hr, hw⟩ := mapM_render_of_forall h
  rw [← renderAll_eq_mapM] at hr
  refine ⟨_, by rw [Node.render, hr]; rfl, writesAt_of_primary ?_⟩
  rw [Node.arranged, Node.allArranged_eq_map]
  rcases eq_or_ne texts [] with rfl | hne
  · rw [List.forall₂_nil_left_iff.1 hw]
    refine (written_mark (m := .rightBracket) (by decide)).behind (m := .leftBracket) (by decide)
      fun row hrow => ?_
    rw [hrow]
    exact .noItems
  · exact (written_items hw hne).between .leftBracket .rightBracket (by decide) (by decide)
      fun _ => .array

theorem mapM_renderEntry_of_forall {entries : List (String × Node)}
    (hk : ∀ e ∈ entries, IsName e.1) (h : ∀ e ∈ entries, IsRendered e.2) :
    ∃ named, ((entries.map fun e => (e.1, e.2.render)).mapM fun (name, text) =>
        (return (name, ← text) : Except RenderError (String × List Char))) = .ok named ∧
      List.Forall₂ WritesEntry named (entries.map fun e => (e.1, e.2.arranged)) := by
  have hwrites : ∀ e ∈ entries, ∃ named, (return (e.1, ← e.2.render) : Except RenderError _) =
      .ok named ∧ WritesEntry named (e.1, e.2.arranged) := by
    intro e he
    obtain ⟨text, hr, hw⟩ := h e he
    exact ⟨(e.1, text), by rw [hr]; rfl, rfl, hk e he, hw.writes⟩
  obtain ⟨named, hr, hw⟩ := Grammar.exists_mapM_eq_ok hwrites
  exact ⟨named, by rwa [List.mapM_map], List.forall₂_map_right_iff.2 hw.flip⟩

/-- A call is written with its arguments arranged. -/
theorem IsRendered.call {f : String} {args : List Node} (hf : IsName f)
    (hkeys : ∀ e ∈ (splitArgs args).2, IsName e.1) (hp : ∀ t ∈ (splitArgs args).1, IsRendered t)
    (hv : ∀ e ∈ (splitArgs args).2, IsRendered e.2) : IsRendered (.call f args) := by
  obtain ⟨texts, hr, hw⟩ := mapM_render_of_forall hp
  obtain ⟨named, hr', hw'⟩ := mapM_renderEntry_of_forall hkeys hv
  refine ⟨callText f texts named, ?_, writesAt_of_primary ?_⟩
  · rw [Node.render, Node.renderArgs_eq]
    simp only [hr, hr']
    rfl
  · rw [Node.arranged, Node.arrangedArgs_eq]
    exact written_call hf hw hw'

/-- The text of a natural number has no sign. -/
theorem intText_natCast (n : Nat) : Number.intText n = Number.natText n := by
  rw [Number.intText, if_neg (by omega)]
  rfl

/-- **A legible expression is written, and what is written spells it again**, with its arguments
arranged. -/
theorem Legible.isRendered {n : Node} (h : Legible Number.IsLiteral n) : IsRendered n := by
  induction h with
  | int m hm =>
    refine ⟨Number.natText m, ?_, writesAt_of_primary ⟨tight_int m, _, cutsInto_int hm, ?_⟩⟩
    · rw [intNode, Node.render, numberText, intText_natCast]
    · rw [intNode, Node.arranged]
      exact .int m
  | float x hx =>
    obtain ⟨whole, fraction, hp, hl⟩ := hx
    refine ⟨_, by rw [Node.render, numberText],
      writesAt_of_primary ⟨tight_float hp, _, cutsInto_float hp hl, ?_⟩⟩
    rw [Node.arranged]
    exact .float x
  | string s =>
    refine ⟨_, by rw [Node.render, literalText]; rfl,
      writesAt_of_primary ⟨tight_string s, _, cutsInto_string s, ?_⟩⟩
    rw [Node.arranged]
    exact .string s
  | @name s hs =>
    refine ⟨_, by rw [Node.render],
      writesAt_of_primary ⟨tight_name hs, _, cutsInto_name hs, ?_⟩⟩
    rw [Node.arranged]
    exact .name s
  | array _ ih => exact .array ih
  | index _ _ iht ihi => exact iht.index ihi
  | unary hm _ ih => exact ih.unary hm
  | sum hm _ _ ihl ihr =>
    obtain ⟨hop, -, hstrength, hdemands⟩ := of_sumOperator? hm
    exact ihl.binary ihr hop hstrength hdemands (by decide) fun _ _ => .sum hm
  | product hm _ _ ihl ihr =>
    obtain ⟨hop, hstrength, hdemands⟩ := of_productOperator? hm
    exact ihl.binary ihr hop hstrength hdemands (by decide) fun _ _ => .product hm
  | power _ _ ihl ihr =>
    exact @IsRendered.binary _ _ ihl ihr .power "^" 3 4 3 rfl rfl rfl (by decide) fun _ _ => .power
  | call hf _ hkeys _ ihp ihv => exact .call hf hkeys ihp ihv

end ChartScript.Syntax
