import ChartScript.Proofs.Lines

/-!
# Two ways of cutting a line

The line reader cuts the text of an expression into lexemes (`ChartScript.Syntax.scan`), the grammar
cuts it into words (`ChartScript.Grammar.wordsFrom`). The two differ in three ways: the grammar knows
fewer letters and digits, it passes over more between words, and it cuts what the line reader takes
as one name or one number where the classes of characters differ.

The first difference shows as a stray word and the last as two words that touch, and neither can be
in the text of an expression that is read. So that leaves the gaps: a text is *plainly spaced* if the
grammar passes over nothing that the line reader would stumble over
(`ChartScript.Grammar.isPlainlySpaced`), and that is the exact condition for the two to agree on a
text that the grammar reads (`ChartScript.Grammar.lexed_of_words`,
`ChartScript.Grammar.isPlainlySpaced_of_lexed`). In a text of basic characters that the line reader
reads there is nothing else in a gap (`ChartScript.Grammar.words_of_lexed`).
-/

namespace ChartScript.Grammar

open ChartScript.Text
open ChartScript.Syntax (stringBody? Mark Lexeme LexError Cut cut cutNumber scanFrom Apart)

/-! ### Where a word ends -/

/-- Nothing goes on a name or a number here. -/
def Clear (text : List Char) : Prop := ∀ c ∈ text.head?, isWordChar c = false ∧ c ≠ '.'

/-- Where nothing goes on a name, the two ways find the same one. -/
theorem nameRest_of_clear {text : List Char} (h : Clear (nameRest text).2.2) :
    Syntax.nameRest text = (nameRest text).2 := by
  fun_induction nameRest text with
  | case1 c rest hc dotted name after heq ih =>
    rw [heq] at ih
    rw [Syntax.nameRest, if_pos (isNameStart_of_isNameStart hc), ih h]
  | case2 c rest hc => exact absurd rfl (h '.' rfl).2
  | case3 c rest hne hc dotted name after heq ih =>
    rw [heq] at ih
    rw [Syntax.nameRest, if_pos (isWordChar_of_isNameChar hc), ih h]
    exact hne
  | case4 c rest hne hc =>
    rw [Syntax.nameRest, if_neg (by simp [(h c rfl).1])]
    exact hne
  | case5 => rfl

theorem Clear.not_isDigit {text : List Char} (h : Clear text) :
    ∀ c ∈ text.head?, isDigit c = false := by
  exact fun c hc => not_isDigit_of_not_isWordChar (h c hc).1

/-- Where nothing goes on a number, the two ways find the same digits. -/
theorem digits_of_clear {text : List Char} (h : Clear (text.dropWhile isDecimalDigit)) :
    text.takeWhile isDigit = text.takeWhile isDecimalDigit ∧
      text.dropWhile isDigit = text.dropWhile isDecimalDigit :=
  takeWhile_widen (fun _ => isDigit_of_isDecimalDigit) h.not_isDigit

/-- Where nothing goes on a number, the two ways find the same fraction. -/
theorem fractionRest_of_clear {text : List Char} (h : Clear (fractionRest text).2) :
    Syntax.fractionRest text = fractionRest text := by
  fun_cases fractionRest text with
  | case1 c rest hc =>
    rw [fractionRest, if_pos hc] at h
    rw [Syntax.fractionRest, if_pos (isDigit_of_isDecimalDigit hc), (digits_of_clear h).1,
      (digits_of_clear h).2]
  | case2 c rest hc =>
    rw [fractionRest, if_neg hc] at h
    exact absurd rfl (h '.' rfl).2
  | case3 text hne => rw [Syntax.fractionRest.eq_2 text hne]

/-! ### One lexeme -/

/-- The classes of the two ways agree on a name or a number that starts with the character. -/
structure Alike (c : Char) (rest : List Char) : Prop where
  /-- A name goes equally far. -/
  name : isNameStart c → Syntax.nameRest rest = (nameRest rest).2
  /-- A number has the same digits before the point. -/
  digits : isDecimalDigit c ∨ c = '.' →
    (c :: rest).takeWhile isDigit = (c :: rest).takeWhile isDecimalDigit ∧
      (c :: rest).dropWhile isDigit = (c :: rest).dropWhile isDecimalDigit
  /-- A number has the same fraction. -/
  fraction : isDecimalDigit c ∨ c = '.' →
    Syntax.fractionRest ((c :: rest).dropWhile isDecimalDigit) =
      fractionRest ((c :: rest).dropWhile isDecimalDigit)

/-- What the line reader makes of a word of the grammar: the lexeme of the word, or nothing if the
word is a number without a value. -/
def CutAs (outcome : Except LexError Cut) (saying : Saying) (after : List Char) : Prop :=
  (∃ found, outcome = .ok found ∧ found.rest = after ∧
      ∀ filler, saying.lexeme? filler = some found.lexeme) ∨
    outcome = .error .unreadableNumber ∧ ∀ filler, saying.lexeme? filler = some (.int filler)

theorem cutNumber_as {text after : List Char} {fraction : Option (List Char)}
    (hf : Syntax.fractionRest (text.dropWhile isDigit) = (fraction, after)) :
    CutAs (cutNumber text) (.number (text.takeWhile isDigit) fraction) after := by
  rw [cutNumber, hf]
  cases fraction with
  | none =>
    simp only [CutAs, Saying.lexeme?, numberLexeme]
    cases Number.literalInt? (text.takeWhile isDigit) with
    | none => exact .inr ⟨rfl, fun filler => rfl⟩
    | some n => exact .inl ⟨_, rfl, rfl, fun filler => rfl⟩
  | some fraction =>
    simp only [CutAs, Saying.lexeme?, numberLexeme]
    cases Number.literalFloat? (text.takeWhile isDigit) fraction with
    | none => exact .inr ⟨rfl, fun filler => rfl⟩
    | some x => exact .inl ⟨_, rfl, rfl, fun filler => rfl⟩

theorem not_isDigit_of_isNameStart {c : Char} (h : isNameStart c) :
    isDigit c = false ∧ c ≠ '.' ∧ c ≠ '"' ∧ c ≠ '\'' := by
  have hb := isBasic_of_isNameChar (isNameChar_of_isNameStart h)
  rw [isDigit_eq_isDigit hb]
  exact forall_isBasic
    (P := fun c => isNameStart c → c.isDigit = false ∧ c ≠ '.' ∧ c ≠ '"' ∧ c ≠ '\'') (by decide) hb h

theorem isWord_numberLexeme (filler : Nat) (whole : List Char) (fraction : Option (List Char)) :
    (numberLexeme filler whole fraction).isWord := by
  rcases numberLexeme_cases filler whole fraction with ⟨n, hn, -⟩ | ⟨x, hx, -⟩
  · rw [hn]
    rfl
  · rw [hx]
    rfl

/-- A name has its text, whether it goes over a point or not. -/
theorem name?_ite (dotted : Bool) (text : List Char) :
    (if dotted then Saying.dotted text else .name text).name? = some (String.ofList text) := by
  split <;> rfl

theorem lexeme?_of_name? {saying : Saying} {name : String} (h : saying.name? = some name)
    (filler : Nat) : saying.lexeme? filler = some (.name name) := by
  cases saying <;> cases h <;> rfl

/-- A number of the grammar is one of the line reader. -/
theorem cut_of_number {c : Char} {rest after : List Char} {fraction : Option (List Char)}
    (ha : Alike c rest) (hc : isDecimalDigit c ∨ c = '.') (hs : Syntax.startsNumber c rest)
    (hf : fractionRest ((c :: rest).dropWhile isDecimalDigit) = (fraction, after)) (column : Nat) :
    CutAs (cut column c rest) (.number ((c :: rest).takeWhile isDecimalDigit) fraction) after := by
  have hd := ha.digits hc
  have hf' := ha.fraction hc
  rw [hf, ← hd.2] at hf'
  rw [cut, if_pos hs, ← hd.1]
  exact cutNumber_as hf'

/-- A fraction starts a number. -/
theorem startsNumber_of_fractionRest {rest fraction after : List Char}
    (h : fractionRest ('.' :: rest) = (some fraction, after)) : Syntax.startsNumber '.' rest := by
  rcases rest with _ | ⟨d, rest⟩
  · cases h
  · by_cases hd : isDecimalDigit d
    · simp [Syntax.startsNumber, isDigit_of_isDecimalDigit hd]
    · rw [fractionRest, if_neg hd] at h
      cases h

/-- A mark is a lexeme wherever it stands. -/
theorem cut_of_mark (m : Mark) (rest : List Char) (column : Nat) :
    cut column m.char rest = .ok { lexeme := .mark m, raw := [m.char], rest } := by
  obtain ⟨hw, hp, hq, hq'⟩ := not_isWordChar_char m
  have hd := not_isDigit_of_not_isWordChar hw
  have hn := not_isNameStart_of_not_isWordChar hw
  rw [cut, if_neg (by simp [Syntax.startsNumber, hd, hp]), if_neg (by simp [hq, hq']),
    if_neg (by simp [hn]), Mark.ofChar?_char]

theorem IsQuote.not_isWordChar {c : Char} (h : IsQuote c) : isWordChar c = false ∧ c ≠ '.' := by
  rcases h with rfl | rfl <;> exact ⟨(isWordChar_eq_isNameChar (by decide)).trans (by decide), by decide⟩

theorem cut_of_quote {c : Char} (hc : IsQuote c) (rest : List Char) (column : Nat) :
    cut column c rest =
      match stringBody? c rest with
      | none => .error (.unterminated column)
      | some (body, after) =>
        .ok { lexeme := .string (String.ofList (Syntax.unescape body)), raw := c :: body ++ [c],
              rest := after } := by
  have hs : Syntax.startsNumber c rest = false := by
    have hd := not_isDigit_of_not_isWordChar hc.not_isWordChar.1
    simp [Syntax.startsNumber, hd, hc.not_isWordChar.2]
  rw [cut]
  exact (if_neg (by simp [hs])).trans (if_pos (by simpa [IsQuote] using hc))

/-- **The kinds of words**, outside indicator lines: names, numbers, strings and marks. -/
theorem word?_cases {c : Char} {rest after : List Char} {saying : Saying} {count : Nat}
    (hw : word? false c rest = some (saying, count, after)) :
    (isNameStart c ∧ after = (nameRest rest).2.2 ∧
        saying = if (nameRest rest).1 then .dotted (c :: (nameRest rest).2.1)
          else .name (c :: (nameRest rest).2.1)) ∨
      ((isDecimalDigit c ∨ c = '.') ∧ Syntax.startsNumber c rest ∧ ∃ fraction,
        saying = .number ((c :: rest).takeWhile isDecimalDigit) fraction ∧
        fractionRest ((c :: rest).dropWhile isDecimalDigit) = (fraction, after)) ∨
      (IsQuote c ∧ ∃ body, stringBody? c rest = some (body, after) ∧ body.all isInLine ∧
        saying = .string body) ∨
      ∃ m : Mark, c = m.char ∧ after = rest ∧ saying = .mark m := by
  simp only [word?, Bool.false_eq_true, if_false] at hw
  split at hw
  · rename_i hc
    cases hw
    exact .inl ⟨hc, rfl, rfl⟩
  · split at hw
    · rename_i hc
      cases hw
      refine .inr (.inl ⟨.inl hc, by simp [Syntax.startsNumber, isDigit_of_isDecimalDigit hc], _, ?_,
        by rw [List.dropWhile_cons_of_pos hc]⟩)
      rw [List.takeWhile_cons_of_pos hc]
    · rename_i hd
      split at hw
      · rename_i hc
        subst hc
        split at hw
        · rename_i hf
          cases hw
          refine .inr (.inl ⟨.inr rfl, startsNumber_of_fractionRest hf, _, ?_,
            by rw [List.dropWhile_cons_of_neg hd, hf]⟩)
          rw [List.takeWhile_cons_of_neg hd]
        · cases hw
      · split at hw
        · rename_i hc
          split at hw
          · rename_i hb
            split at hw
            · rename_i hl
              cases hw
              exact .inr (.inr (.inl ⟨by simpa [IsQuote] using hc, _, hb, hl, rfl⟩))
            · cases hw
          · cases hw
        · split at hw
          · rename_i hm
            cases hw
            exact .inr (.inr (.inr ⟨_, char_of_ofChar? hm, rfl, rfl⟩))
          · cases hw

/-- **A word of the grammar is a lexeme of the line reader.** -/
theorem cut_of_word {c : Char} {rest after : List Char} {saying : Saying} {count : Nat}
    (ha : Alike c rest) (hw : word? false c rest = some (saying, count, after)) (column : Nat) :
    CutAs (cut column c rest) saying after := by
  rcases word?_cases hw with ⟨hc, rfl, rfl⟩ | ⟨hc, hs, fraction, rfl, hf⟩ |
    ⟨hc, body, hb, -, rfl⟩ | ⟨m, rfl, rfl, rfl⟩
  · obtain ⟨hd, hp, hq, hq'⟩ := not_isDigit_of_isNameStart hc
    rw [cut, if_neg (by simp [Syntax.startsNumber, hd, hp]), if_neg (by simp [hq, hq']),
      if_pos (isNameStart_of_isNameStart hc), ha.name hc]
    exact .inl ⟨_, rfl, rfl, lexeme?_of_name? (name?_ite _ _)⟩
  · exact cut_of_number ha hc hs hf column
  · rw [cut_of_quote hc, hb]
    exact .inl ⟨_, rfl, rfl, fun filler => rfl⟩
  · rw [cut_of_mark]
    exact .inl ⟨_, rfl, rfl, fun filler => rfl⟩

/-! ### Where the classes agree -/

theorem not_isDigit_of_clear {text : List Char} (h : Clear (fractionRest text).2) :
    ∀ c ∈ text.head?, isDigit c = false := by
  fun_cases fractionRest text with
  | case1 | case2 =>
    rintro c ⟨⟩
    rw [isDigit_eq_isDigit (by decide)]
    decide
  | case3 text hne =>
    rw [fractionRest.eq_2 text hne] at h
    exact h.not_isDigit

theorem not_isDecimalDigit_of_isNameStart {c : Char} (h : isNameStart c) :
    ¬(isDecimalDigit c ∨ c = '.') := by
  obtain ⟨hd, hp, -, -⟩ := not_isDigit_of_isNameStart h
  rintro (hc | hc)
  · rw [isDigit_of_isDecimalDigit hc] at hd
    cases hd
  · exact hp hc

/-- A character that starts neither a name nor a number asks for nothing. -/
theorem alike_of_not_isWordChar {c : Char} (h : isWordChar c = false) (hp : c ≠ '.')
    (rest : List Char) : Alike c rest := by
  have hn : ¬ isNameStart c := fun hc => by
    rw [isWordChar_of_isNameChar (isNameChar_of_isNameStart hc)] at h
    cases h
  have hd : ¬(isDecimalDigit c ∨ c = '.') := by
    rintro (hc | hc)
    · rw [isWordChar_of_isDigit (isDigit_of_isDecimalDigit hc)] at h
      cases h
    · exact hp hc
  exact ⟨fun hc => absurd hc hn, fun hc => absurd hc hd, fun hc => absurd hc hd⟩

/-- **The classes agree on a word behind which nothing goes on.** -/
theorem alike_of_clear {c : Char} {rest after : List Char} {saying : Saying} {count : Nat}
    (hw : word? false c rest = some (saying, count, after))
    (h : ∀ a, saying.lexeme? 0 = some a → a.isWord → Clear after) : Alike c rest := by
  rcases word?_cases hw with ⟨hc, rfl, rfl⟩ | ⟨hc, -, fraction, rfl, hf⟩ |
    ⟨hc, body, hb, -, rfl⟩ | ⟨m, rfl, rfl, rfl⟩
  · have hd := not_isDecimalDigit_of_isNameStart hc
    exact ⟨fun _ => nameRest_of_clear (h _ (lexeme?_of_name? (name?_ite _ _) 0) rfl),
      fun hc => absurd hc hd, fun hc => absurd hc hd⟩
  · have hclear : Clear (fractionRest ((c :: rest).dropWhile isDecimalDigit)).2 := by
      rw [hf]
      exact h _ rfl (isWord_numberLexeme 0 _ fraction)
    exact ⟨fun hn => absurd hc (not_isDecimalDigit_of_isNameStart hn),
      fun _ => takeWhile_widen (fun _ => isDigit_of_isDecimalDigit) (not_isDigit_of_clear hclear),
      fun _ => fractionRest_of_clear hclear⟩
  · exact alike_of_not_isWordChar hc.not_isWordChar.1 hc.not_isWordChar.2 rest
  · exact alike_of_not_isWordChar (not_isWordChar_char m).1 (not_isWordChar_char m).2.1 after

theorem isNameStart_eq_of_basic {c : Char} (h : isBasic c) :
    Syntax.isNameStart c = isNameStart c := by
  rw [Syntax.isNameStart, isLetter_eq_isAlpha h]
  rfl

theorem nameRest_of_basic {text : List Char} (h : text.all isBasic) :
    Syntax.nameRest text = (nameRest text).2 := by
  fun_induction nameRest text with
  | case1 c rest hc dotted name after heq ih =>
    rw [heq] at ih
    rw [Syntax.nameRest, if_pos (isNameStart_of_isNameStart hc), ih (of_all_cons (of_all_cons h).2).2]
  | case2 c rest hc =>
    rw [Syntax.nameRest, if_neg (by rwa [isNameStart_eq_of_basic (of_all_cons (of_all_cons h).2).1])]
  | case3 c rest hne hc dotted name after heq ih =>
    rw [heq] at ih
    rw [Syntax.nameRest, if_pos (isWordChar_of_isNameChar hc), ih (of_all_cons h).2]
    exact hne
  | case4 c rest hne hc =>
    rw [Syntax.nameRest, if_neg (by rwa [isWordChar_eq_isNameChar (of_all_cons h).1])]
    exact hne
  | case5 => rfl

theorem digits_of_basic {text : List Char} (h : text.all isBasic) :
    text.takeWhile isDigit = text.takeWhile isDecimalDigit ∧
      text.dropWhile isDigit = text.dropWhile isDecimalDigit := by
  refine takeWhile_widen (fun _ => isDigit_of_isDecimalDigit) fun c hc => ?_
  have hm : c ∈ text := (List.dropWhile_sublist _).subset (List.mem_of_mem_head? hc)
  have hd := List.head?_dropWhile_not isDecimalDigit text
  rw [Option.mem_def.1 hc] at hd
  rw [isDigit_eq_isDecimalDigit (List.all_eq_true.1 h c hm)]
  simpa using hd

theorem fractionRest_of_basic {text : List Char} (h : text.all isBasic) :
    Syntax.fractionRest text = fractionRest text := by
  fun_cases fractionRest text with
  | case1 c rest hc =>
    have hr := digits_of_basic (of_all_cons (of_all_cons h).2).2
    rw [Syntax.fractionRest, if_pos (isDigit_of_isDecimalDigit hc), hr.1, hr.2]
  | case2 c rest hc =>
    rw [Syntax.fractionRest, if_neg (by rwa [isDigit_eq_isDecimalDigit (of_all_cons (of_all_cons h).2).1])]
  | case3 text hne => rw [Syntax.fractionRest.eq_2 text hne]

/-- **The classes agree on basic characters.** -/
theorem alike_of_basic {c : Char} {rest : List Char} (h : (c :: rest).all isBasic) :
    Alike c rest := by
  refine ⟨fun _ => nameRest_of_basic ?_, fun _ => digits_of_basic h,
    fun _ => fractionRest_of_basic ?_⟩
  · exact (of_all_cons h).2
  · simp only [List.all_eq_true] at h ⊢
    exact fun d hd => h d ((List.dropWhile_sublist _).subset hd)

/-- Where no word starts in a text of basic characters there is no lexeme either. -/
theorem cut_of_no_word {c : Char} {rest : List Char} (h : (c :: rest).all isBasic)
    (hl : rest.all isInLine) (hw : word? false c rest = none) (column : Nat) (found : Cut) :
    cut column c rest ≠ .ok found := by
  have hb : isBasic c := (of_all_cons h).1
  simp only [word?, Bool.false_eq_true, if_false] at hw
  split at hw
  · cases hw
  · rename_i hc
    have hc' : ¬ Syntax.isNameStart c := by rwa [isNameStart_eq_of_basic hb]
    split at hw
    · cases hw
    · rename_i hd
      have hd' : ¬ isDigit c := by rwa [isDigit_eq_isDecimalDigit hb]
      split at hw
      · rename_i hp
        subst hp
        have hs : ¬ Syntax.startsNumber '.' rest := by
          rcases rest with _ | ⟨d, rest⟩
          · simp [Syntax.startsNumber, hd']
          · have hbd : isBasic d := (of_all_cons (of_all_cons h).2).1
            intro hs
            have hdd : isDecimalDigit d := by
              rw [← isDigit_eq_isDecimalDigit hbd]
              simpa [Syntax.startsNumber, hd'] using hs
            rw [fractionRest, if_pos hdd] at hw
            cases hw
        rw [cut, if_neg hs, if_neg (by decide), if_neg hc']
        rintro ⟨⟩
      · rename_i hp
        split at hw
        · rename_i hq
          rw [cut_of_quote (by simpa [IsQuote] using hq)]
          split at hw
          · rename_i hb
            split at hw
            · cases hw
            · rename_i body after hbody
              -- a string that goes over a line break is no word, but there is none
              refine absurd ?_ hbody
              rw [← Syntax.stringBody?_append hb] at hl
              exact List.all_eq_true.2 fun d hd => List.all_eq_true.1 hl d (by simp [hd])
          · rename_i hb
            rw [hb]
            rintro ⟨⟩
        · rename_i hq
          rcases hm : Mark.ofChar? c with _ | m
          · rw [cut, if_neg (by simp [Syntax.startsNumber, hd', hp]), if_neg hq, if_neg hc', hm]
            rintro ⟨⟩
          · rw [hm] at hw
            cases hw

/-- Nothing goes on a word where what follows is no stray and no word that touches it. -/
theorem clear_of_words {text : List Char} {place : Position}
    (hs : NoStray (wordsFrom place false text))
    (ha : ∀ a ∈ (lexemes 0 (wordsFrom place false text)).head?, a.isWord = false) : Clear text := by
  rcases text with _ | ⟨c, rest⟩
  · simp [Clear]
  rintro _ ⟨⟩
  by_cases hp : isPadding c
  · have hb := isBlank_of_isPadding hp
    exact ⟨isWordChar_of_isBlank hb, ne_of_isBlank hb (by decide)⟩
  rw [Bool.not_eq_true] at hp
  by_cases hc : startsComment c rest
  · simp only [startsComment, Bool.and_eq_true, beq_iff_eq] at hc
    rw [hc.1]
    exact ⟨(isWordChar_eq_isNameChar (by decide)).trans (by decide), by decide⟩
  rw [Bool.not_eq_true] at hc
  by_cases hn : c = '\n'
  · subst hn
    exact ⟨isWordChar_of_isBlank isBlank_newline, by decide⟩
  rcases hw : word? false c rest with _ | ⟨saying, count, after⟩
  · rw [wordsFrom_stray hp hc hn hw] at hs
    exact absurd rfl (hs _ List.mem_cons_self)
  · rw [wordsFrom_word hp hc hn hw] at ha
    rcases word?_cases hw with ⟨-, rfl, rfl⟩ | ⟨-, -, fraction, rfl, -⟩ |
      ⟨hq, body, -, -, rfl⟩ | ⟨m, rfl, rfl, rfl⟩
    · rw [lexemes_of_name? (name?_ite _ _)] at ha
      cases ha _ rfl
    · rw [lexemes_number] at ha
      have hw := ha _ rfl
      rw [isWord_numberLexeme] at hw
      cases hw
    · exact hq.not_isWordChar
    · exact ⟨(not_isWordChar_char m).1, (not_isWordChar_char m).2.1⟩

/-! ### The lexemes of a text -/

/-- The lexemes that the line reader cuts a text into. -/
def lexed (column : Nat) (text : List Char) : Except LexError (List Lexeme) :=
  (scanFrom column text).map Syntax.Scan.lexemes

@[simp] theorem lexed_nil (column : Nat) : lexed column [] = .ok [] := by
  rw [lexed, scanFrom]
  rfl

theorem lexed_spacing {c : Char} (h : Syntax.isSpacing c) (column : Nat) (rest : List Char) :
    lexed column (c :: rest) = lexed (column + 1) rest := by
  rw [lexed, scanFrom, if_pos h, lexed]

section Lexed

variable {c : Char} {rest : List Char} (hp : Syntax.isSpacing c = false)

include hp

theorem lexed_comment (hc : Syntax.startsComment c rest) (column : Nat) :
    lexed column (c :: rest) = .ok [] := by
  rw [lexed, scanFrom, if_neg (by simp [hp]), if_pos hc]
  rfl

variable (hc : Syntax.startsComment c rest = false)

include hc

theorem lexed_error {column : Nat} {e : LexError} (h : cut column c rest = .error e) :
    lexed column (c :: rest) = .error e := by
  rw [lexed, Syntax.scanFrom_error hp hc h]
  rfl

theorem lexed_cons {column : Nat} {found : Cut} (h : cut column c rest = .ok found) :
    lexed column (c :: rest) =
      (lexed (column + found.raw.length) found.rest).map (found.lexeme :: ·) := by
  rw [lexed, Syntax.scanFrom_cons hp hc h, lexed]
  rcases scanFrom (column + found.raw.length) found.rest with e | more <;> rfl

/-- The first lexeme of a text that has one. -/
theorem of_lexed_eq_ok {column : Nat} {row : List Lexeme}
    (h : lexed column (c :: rest) = .ok row) : ∃ found row',
      cut column c rest = .ok found ∧ lexed (column + found.raw.length) found.rest = .ok row' ∧
      row = found.lexeme :: row' := by
  rcases hcut : cut column c rest with e | found
  · rw [lexed_error hp hc hcut] at h
    cases h
  · rw [lexed_cons hp hc hcut] at h
    obtain ⟨row', hrow, rfl⟩ := map_eq_ok h
    exact ⟨found, row', rfl, hrow, rfl⟩

end Lexed

/-! ### Gaps -/

/-- **A text is plainly spaced** if the line reader passes over everything that the grammar passes
over: the gaps between words have no form feed, and no comment starts with a slash and a star. -/
def isPlainlySpaced (text : List Char) : Bool :=
  match text with
  | [] => true
  | c :: rest =>
    if isPadding c then Syntax.isSpacing c && isPlainlySpaced rest
    else if startsComment c rest then Syntax.startsComment c rest
    else
      match h : word? false c rest with
      | none => true
      | some (_, _, after) =>
        have := word?_length h
        isPlainlySpaced after
termination_by text.length
decreasing_by all_goals (simp only [List.length_cons]; omega)

/-- No lexeme starts with a blank. -/
theorem cut_of_isBlank {c : Char} (h : isBlank c) (rest : List Char) (column : Nat) :
    cut column c rest = .error (.unexpected c column) := by
  have hw := isWordChar_of_isBlank h
  have hd := not_isDigit_of_not_isWordChar hw
  have hn := not_isNameStart_of_not_isWordChar hw
  have hp : c ≠ '.' := ne_of_isBlank h (by decide)
  have hq : c ≠ '"' ∧ c ≠ '\'' := ⟨ne_of_isBlank h (by decide), ne_of_isBlank h (by decide)⟩
  rw [cut, if_neg (by simp [Syntax.startsNumber, hd, hp]), if_neg (by simp [hq]),
    if_neg (by simp [hn]), ofChar?_of_isBlank h]

/-- A form feed starts no lexeme. -/
theorem isSpacing_of_lexed {c : Char} {rest : List Char} {column : Nat} {row : List Lexeme}
    (hp : isPadding c) (h : lexed column (c :: rest) = .ok row) : Syntax.isSpacing c := by
  simp only [isPadding, Bool.or_eq_true, beq_iff_eq] at hp
  rcases hp with ((rfl | rfl) | rfl) | rfl
  · rfl
  · rfl
  · rw [lexed_error (by decide) (by simp [Syntax.startsComment])
      (cut_of_isBlank (isBlank_of_isPadding (by decide)) rest column)] at h
    cases h
  · rfl

/-- A slash and a star are two lexemes that may not stand next to each other. -/
theorem startsComment_of_lexed {c : Char} {rest : List Char} {column : Nat} {row : List Lexeme}
    (hc : startsComment c rest) (h : lexed column (c :: rest) = .ok row)
    (hr : row.IsChain Apart) : Syntax.startsComment c rest := by
  simp only [startsComment, Bool.and_eq_true, beq_iff_eq] at hc
  obtain ⟨rfl, hc⟩ := hc
  rcases rest with _ | ⟨d, rest⟩
  · cases hc
  · simp only [List.head?_cons, Option.any_some, Bool.or_eq_true, beq_iff_eq] at hc
    rcases hc with rfl | rfl
    · rfl
    · have hslash := cut_of_mark .divide ('*' :: rest) column
      have hstar := cut_of_mark .times rest (column + 1)
      obtain ⟨first, row', hf, h', rfl⟩ := of_lexed_eq_ok (by decide) (by rfl) h
      cases hslash.symm.trans hf
      obtain ⟨second, row'', hf', h'', rfl⟩ := of_lexed_eq_ok (by decide) (by rfl) h'
      cases hstar.symm.trans hf'
      exact absurd ⟨rfl, rfl⟩ (List.isChain_cons_cons.1 hr).1.1

/-! ### The two ways agree -/

/-- Every word has a lexeme, whatever the filler, so that every number has a value. -/
def Valued (words : List Word) : Prop :=
  ∀ word ∈ words, ∃ a, ∀ filler, word.saying.lexeme? filler = some a

/-- The line reader finds the lexeme of a word that has one. -/
theorem cut_of_valued {c : Char} {rest after : List Char} {saying : Saying} {count : Nat}
    (ha : Alike c rest) (hw : word? false c rest = some (saying, count, after))
    (hv : ∃ a, ∀ filler, saying.lexeme? filler = some a) (column : Nat) :
    ∃ found, cut column c rest = .ok found ∧ found.rest = after ∧
      ∀ filler, saying.lexeme? filler = some found.lexeme := by
  rcases cut_of_word ha hw column with h | ⟨-, h⟩
  · exact h
  · -- the lexeme of a number without a value is the filler
    obtain ⟨a, ha⟩ := hv
    have h0 := (h 0).symm.trans (ha 0)
    have h1 := (h 1).symm.trans (ha 1)
    rw [← h1] at h0
    cases h0

theorem Valued.noStray {words : List Word} (h : Valued words) : NoStray words := by
  intro word hword heq
  obtain ⟨a, ha⟩ := h word hword
  have := ha 0
  rw [heq] at this
  cases this

theorem Valued.tail {word : Word} {words : List Word} (h : Valued (word :: words)) :
    Valued words :=
  fun w hw => h w (List.mem_cons_of_mem _ hw)

/-- What follows the first of several words that do not touch. -/
theorem alike_of_valued {c : Char} {rest after : List Char} {saying : Saying} {count : Nat}
    {span : Span} {place : Position}
    (hw : word? false c rest = some (saying, count, after))
    (hv : Valued (⟨saying, span⟩ :: wordsFrom place false after))
    (hr : (lexemes 0 (⟨saying, span⟩ :: wordsFrom place false after)).IsChain Apart) :
    Alike c rest := by
  refine alike_of_clear hw fun a ha hword => clear_of_words hv.tail.noStray fun b hb => ?_
  rw [lexemes, ha] at hr
  have := ((List.isChain_cons.1 hr).1 b hb).2
  simpa [hword] using this

theorem isSpacing_of_padding {c : Char} (hp : isPadding c = false) : Syntax.isSpacing c = false := by
  simp only [isPadding, Bool.or_eq_false_iff] at hp
  simp [Syntax.isSpacing, hp]

theorem startsComment_of_startsComment {c : Char} {rest : List Char}
    (hc : startsComment c rest = false) : Syntax.startsComment c rest = false := by
  rw [Bool.eq_false_iff] at hc ⊢
  intro h
  simp only [Syntax.startsComment, Bool.and_eq_true, beq_iff_eq] at h
  simp [startsComment, h] at hc

/-- A comment takes all of a line. -/
theorem wordsFrom_comment_line {c : Char} {rest : List Char} (hp : isPadding c = false)
    (hc : startsComment c rest) (hl : (c :: rest).all isInLine) (place : Position) :
    wordsFrom place false (c :: rest) = [] := by
  rw [wordsFrom_comment hp hc, dropWhile_isInLine (of_all_cons hl).2, wordsFrom]

/-- **The words of a text are its lexemes**, if the text is plainly spaced and its words do not
touch. -/
theorem lexed_of_words {text : List Char} (hl : text.all isInLine) (hg : isPlainlySpaced text)
    {place : Position} (hv : Valued (wordsFrom place false text))
    (hr : (lexemes 0 (wordsFrom place false text)).IsChain Apart) (column : Nat) :
    lexed column text = .ok (lexemes 0 (wordsFrom place false text)) := by
  fun_induction isPlainlySpaced text generalizing place column with
  | case1 => rw [lexed_nil, wordsFrom, lexemes_nil]
  | case2 c rest hp ih =>
    rw [Bool.and_eq_true] at hg
    rw [wordsFrom_padding hp] at hv hr ⊢
    rw [lexed_spacing hg.1]
    exact ih (of_all_cons hl).2 hg.2 hv hr _
  | case3 c rest hp hc =>
    rw [Bool.not_eq_true] at hp
    rw [wordsFrom_comment_line hp hc hl, lexed_comment (isSpacing_of_padding hp) hg, lexemes_nil]
  | case4 c rest hp hc hw =>
    rw [Bool.not_eq_true] at hp hc
    have hn := ne_newline hl
    rw [wordsFrom_stray hp hc hn hw] at hv
    exact absurd rfl (hv.noStray _ List.mem_cons_self)
  | case5 c rest hp hc saying count after hw hlen ih =>
    rw [Bool.not_eq_true] at hp hc
    have hn := ne_newline hl
    have hl' : after.all isInLine := all_of_word? hw hl
    rw [wordsFrom_word hp hc hn hw] at hv hr ⊢
    obtain ⟨found, hcut, rfl, hf⟩ :=
      cut_of_valued (alike_of_valued hw hv hr) hw (hv _ List.mem_cons_self) column
    rw [lexemes, hf] at hr ⊢
    rw [lexed_cons (isSpacing_of_padding hp) (startsComment_of_startsComment hc) hcut,
      ih hl' hg hv.tail hr.tail]
    rfl

/-- **A text that the line reader reads as its words is plainly spaced.** -/
theorem isPlainlySpaced_of_lexed {text : List Char} (hl : text.all isInLine) {place : Position}
    (hv : Valued (wordsFrom place false text))
    (hr : (lexemes 0 (wordsFrom place false text)).IsChain Apart) {column : Nat}
    {row : List Lexeme} (h : lexed column text = .ok row) (hrow : row.IsChain Apart) :
    isPlainlySpaced text := by
  fun_induction isPlainlySpaced text generalizing place column row with
  | case1 => rfl
  | case2 c rest hp ih =>
    have hs := isSpacing_of_lexed hp h
    rw [wordsFrom_padding hp] at hv hr
    rw [lexed_spacing hs] at h
    rw [hs, ih (of_all_cons hl).2 hv hr h hrow]
    rfl
  | case3 c rest hp hc => exact startsComment_of_lexed hc h hrow
  | case4 => rfl
  | case5 c rest hp hc saying count after hw hlen ih =>
    rw [Bool.not_eq_true] at hp hc
    have hn := ne_newline hl
    have hl' : after.all isInLine := all_of_word? hw hl
    rw [wordsFrom_word hp hc hn hw] at hv hr
    obtain ⟨found, hcut, rfl, hf⟩ :=
      cut_of_valued (alike_of_valued hw hv hr) hw (hv _ List.mem_cons_self) column
    rw [lexemes, hf] at hr
    obtain ⟨found', row', hcut', hafter, rfl⟩ :=
      of_lexed_eq_ok (isSpacing_of_padding hp) (startsComment_of_startsComment hc) h
    cases hcut.symm.trans hcut'
    exact ih hl' hv.tail hr.tail hafter hrow.tail

/-- **The lexemes of a text of basic characters are its words.** -/
theorem words_of_lexed {text : List Char} (hb : text.all isBasic) (hl : text.all isInLine)
    {column : Nat} {row : List Lexeme} (h : lexed column text = .ok row)
    (hrow : row.IsChain Apart) (place : Position) :
    Valued (wordsFrom place false text) ∧
      ∀ filler, lexemes filler (wordsFrom place false text) = row := by
  fun_induction isPlainlySpaced text generalizing place column row with
  | case1 =>
    rw [lexed_nil] at h
    cases h
    rw [wordsFrom]
    exact ⟨by simp [Valued], fun filler => rfl⟩
  | case2 c rest hp ih =>
    rw [lexed_spacing (isSpacing_of_lexed hp h)] at h
    rw [wordsFrom_padding hp]
    exact ih (of_all_cons hb).2 (of_all_cons hl).2 h hrow _
  | case3 c rest hp hc =>
    rw [Bool.not_eq_true] at hp
    rw [lexed_comment (isSpacing_of_padding hp) (startsComment_of_lexed hc h hrow)] at h
    cases h
    rw [wordsFrom_comment_line hp hc hl]
    exact ⟨by simp [Valued], fun filler => rfl⟩
  | case4 c rest hp hc hw =>
    rw [Bool.not_eq_true] at hp hc
    obtain ⟨found, row', hcut, -⟩ :=
      of_lexed_eq_ok (isSpacing_of_padding hp) (startsComment_of_startsComment hc) h
    exact absurd hcut (cut_of_no_word hb (of_all_cons hl).2 hw column found)
  | case5 c rest hp hc saying count after hw hlen ih =>
    rw [Bool.not_eq_true] at hp hc
    have hn := ne_newline hl
    obtain ⟨found, row', hcut, hafter, rfl⟩ :=
      of_lexed_eq_ok (isSpacing_of_padding hp) (startsComment_of_startsComment hc) h
    rcases cut_of_word (alike_of_basic hb) hw column with ⟨found', hcut', rfl, hf⟩ | ⟨hcut', -⟩
    · cases hcut.symm.trans hcut'
      obtain ⟨hv, hl⟩ := ih (all_of_word? hw hb) (all_of_word? hw hl) hafter hrow.tail (place.right count)
      rw [wordsFrom_word hp hc hn hw]
      refine ⟨fun word hword => ?_, fun filler => ?_⟩
      · rcases List.mem_cons.1 hword with rfl | hword
        · exact ⟨_, hf⟩
        · exact hv word hword
      · rw [lexemes, hf, hl]
    · cases hcut.symm.trans hcut'

end ChartScript.Grammar
