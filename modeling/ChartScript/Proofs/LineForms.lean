import ChartScript.Proofs.Lexing

/-!
# The forms of a line

The line reader looks at a line without the blanks at its ends and decides by its first characters
which form it may have. The grammar decides by the first words. This file says that the two decide
alike.

The blanks at the ends of a line make no difference to its words, unless one of them is a stray
(`ChartScript.Grammar.words_trim`). Where the first words are a name and an equals sign, the line
looks like an assignment, and where they are a name and a parenthesis it looks like a call
(`ChartScript.Grammar.assignmentParts?_of_words`, `ChartScript.Grammar.looksLikeCall_of_words`); and
the other way round.
-/

namespace ChartScript.Grammar

open ChartScript.Text
open ChartScript.Syntax (Mark Lexeme isIndicatorLine isCommentLine assignmentParts? looksLikeCall
  leadingName? isTargetStart isTargetChar)

/-! ### Blanks at the ends of a line -/

/-- No word starts with a blank. -/
theorem word?_of_isBlank {c : Char} (h : isBlank c) (atStart : Bool) (rest : List Char) :
    word? atStart c rest = none := by
  have hw : word? false c rest = none := by
    rw [Option.eq_none_iff_forall_ne_some]
    rintro ⟨saying, count, after⟩ hw
    rcases word?_cases hw with ⟨hc, -⟩ | ⟨hc | rfl, -⟩ | ⟨hc, -⟩ | ⟨m, rfl, -⟩
    · rw [isNameStart_of_isBlank h] at hc
      cases hc
    · rw [isDecimalDigit_of_isBlank h] at hc
      cases hc
    · exact not_isBlank (by decide) h
    · rcases hc with rfl | rfl <;> exact not_isBlank (by decide) h
    · have := ofChar?_of_isBlank h
      simp at this
  cases atStart with
  | false => exact hw
  | true =>
    have hi : isIndicatorLine (c :: rest) = false := by
      have hne : ¬ 'i' = c := (ne_of_isBlank h (by decide)).symm
      simp [isIndicatorLine, hne]
    rw [word?_true, indicatorLine?_eq, if_neg (by simp [hi])]
    exact hw

theorem isPadding_of_not_isBlank {c : Char} (hb : isBlank c = false) : isPadding c = false := by
  rw [Bool.eq_false_iff] at hb ⊢
  exact fun hp => hb (isBlank_of_isPadding hp)

/-- The blanks of a text are passed over, or else there is no stray word. -/
def Passed (text : List Char) (words : List Word) : Prop :=
  NoStray words ∨ ∀ c ∈ text, isBlank c → isPadding c

/-- Blanks at the start make no difference. -/
theorem wordsFrom_trimStart {text : List Char} (hl : text.all isInLine) {atStart : Bool}
    {place : Position} (h : Passed text (wordsFrom place atStart text)) :
    ∃ place', wordsFrom place atStart text = wordsFrom place' atStart (trimStart text) := by
  induction text generalizing place with
  | nil => exact ⟨place, rfl⟩
  | cons c rest ih =>
    by_cases hb : isBlank c
    · rw [trimStart, List.dropWhile_cons_of_pos hb]
      by_cases hp : isPadding c
      · rw [wordsFrom_padding hp] at h ⊢
        exact ih (of_all_cons hl).2 (h.imp_right fun h d hd => h d (List.mem_cons_of_mem _ hd))
      · -- a blank that is not passed over is a stray
        rw [Bool.not_eq_true] at hp
        have hn := ne_newline hl
        have hc : startsComment c rest = false := by
          have : c ≠ '/' := ne_of_isBlank hb (by decide)
          simp [startsComment, this]
        rcases h with h | h
        · rw [wordsFrom_stray hp hc hn (word?_of_isBlank hb atStart rest)] at h
          exact absurd rfl (h _ List.mem_cons_self)
        · rw [h c List.mem_cons_self hb] at hp
          cases hp
    · rw [trimStart, List.dropWhile_cons_of_neg hb]
      exact ⟨place, rfl⟩

/-- Nothing but blanks is nothing. -/
theorem wordsFrom_blanks {text : List Char} (hb : ∀ c ∈ text, isBlank c) (hl : text.all isInLine)
    {atStart : Bool} {place : Position} (h : Passed text (wordsFrom place atStart text)) :
    wordsFrom place atStart text = [] := by
  obtain ⟨place', heq⟩ := wordsFrom_trimStart hl h
  rw [heq, trimStart, List.dropWhile_eq_nil_iff.2 hb, wordsFrom]

/-- What is cut off at the end are blanks. -/
theorem trimEnd_append (text : List Char) :
    ∃ blanks, text = trimEnd text ++ blanks ∧ ∀ c ∈ blanks, isBlank c := by
  refine ⟨(text.reverse.takeWhile isBlank).reverse, ?_, fun c hc => ?_⟩
  · rw [trimEnd, ← List.reverse_append, List.takeWhile_append_dropWhile, List.reverse_reverse]
  · exact List.mem_takeWhile_imp (List.mem_reverse.1 hc)

theorem isMargin_of_blanks {text : List Char} (hb : ∀ c ∈ text, isBlank c) : IsMargin text :=
  fun c hc => hb c ((List.takeWhile_sublist _).subset hc)

/-- Blanks at the end make no difference behind the start of a statement. -/
theorem wordsFrom_trimEnd {text : List Char} (hl : text.all isInLine) {place : Position}
    (h : Passed text (wordsFrom place false text)) :
    wordsFrom place false text = wordsFrom place false (trimEnd text) := by
  obtain ⟨blanks, heq, hb⟩ := trimEnd_append text
  generalize trimEnd text = front at heq
  subst heq
  have hl' : front.all isInLine ∧ blanks.all isInLine := by simpa using hl
  rcases wordsFrom_append (isMargin_of_blanks hb) hl'.1 (fun h : false = true => nomatch h) place with
    ⟨-, heq⟩ | ⟨place', atStart', tail', ht, heq⟩
  · exact heq
  · rw [heq] at h ⊢
    -- the blanks, or what a comment before them leaves of them, have no words
    refine List.append_right_eq_self.2 ?_
    rcases ht with rfl | rfl
    · refine wordsFrom_blanks hb hl'.2 (h.imp (fun h word hw => ?_) fun h c hc => ?_)
      · exact h word (List.mem_append_right _ hw)
      · exact h c (List.mem_append_right _ hc)
    · rw [List.dropWhile_eq_nil_iff.2 (by simpa using hl'.2), wordsFrom]

/-- An indicator line is a single word. -/
theorem wordsFrom_indicator {text : List Char} (hl : text.all isInLine)
    (hi : isIndicatorLine text) (place : Position) :
    ∃ span, wordsFrom place true text = [⟨.indicator text, span⟩] := by
  rcases text with _ | ⟨c, rest⟩
  · exact absurd hi (by decide)
  · obtain rfl : 'i' = c := by
      simp only [isIndicatorLine, Bool.and_eq_true] at hi
      obtain ⟨more, heq⟩ := List.isPrefixOf_iff_prefix.1 hi.1
      exact (List.cons.inj heq).1
    have hl' : ∀ d ∈ 'i' :: rest, isInLine d := by simpa using hl
    have hw : word? true 'i' rest = some (.indicator ('i' :: rest), rest.length + 1, []) := by
      rw [word?_true, indicatorLine?_eq, if_pos hi, List.takeWhile_eq_self_iff.2 hl',
        List.dropWhile_eq_nil_iff.2 hl']
      rfl
    rw [wordsFrom_word (by decide) (by simp [startsComment]) (by decide) hw, wordsFrom]
    exact ⟨_, rfl⟩

/-- A line that is no indicator line has the words that it would have anywhere. -/
theorem wordsFrom_true {text : List Char} (hl : text.all isInLine) (hi : ¬ isIndicatorLine text)
    (hb : ∀ c ∈ text.head?, isBlank c = false) (place : Position) :
    wordsFrom place true text = wordsFrom place false text := by
  rcases text with _ | ⟨c, rest⟩
  · rw [wordsFrom, wordsFrom]
  have hp := isPadding_of_not_isBlank (hb c rfl)
  by_cases hc : startsComment c rest
  · rw [wordsFrom_comment hp hc, wordsFrom_comment hp hc, dropWhile_isInLine (of_all_cons hl).2,
      wordsFrom, wordsFrom]
  · rw [Bool.not_eq_true] at hc
    have hn := ne_newline hl
    have hw : word? true c rest = word? false c rest := by
      rw [word?_true, indicatorLine?_eq, if_neg hi]
    rcases h : word? false c rest with _ | ⟨saying, count, after⟩
    · rw [wordsFrom_stray hp hc hn (hw.trans h), wordsFrom_stray hp hc hn h]
    · rw [wordsFrom_word hp hc hn (hw.trans h), wordsFrom_word hp hc hn h]

theorem isIndicatorLine_trimEnd (text : List Char) :
    isIndicatorLine (trimEnd text) = isIndicatorLine text := by
  obtain ⟨blanks, heq, hb⟩ := trimEnd_append text
  have h := isIndicatorLine_append (isMargin_of_blanks hb).not_isWordChar (trimEnd text)
  rw [← heq] at h
  exact h.symm

/-- **The words of a line** are those of the line without the blanks at its ends; an indicator line
is a single word. -/
theorem words_trim {line : List Char} (hl : line.all isInLine) {place : Position}
    (h : Passed line (wordsFrom place true line)) :
    (isIndicatorLine (trim line) ∧ ∃ text span,
        wordsFrom place true line = [⟨.indicator text, span⟩] ∧ trim text = trim line) ∨
      ¬ isIndicatorLine (trim line) ∧ ∃ place',
        wordsFrom place true line = wordsFrom place' false (trim line) := by
  obtain ⟨place', heq⟩ := wordsFrom_trimStart hl h
  have hsub : trimStart line ⊆ line := (List.dropWhile_sublist _).subset
  have hl' : (trimStart line).all isInLine := all_of_subset hsub hl
  have h' : Passed (trimStart line) (wordsFrom place' true (trimStart line)) := by
    rw [← heq]
    exact h.imp_right fun h c hc => h c (hsub hc)
  rw [heq, trim, isIndicatorLine_trimEnd]
  by_cases hi : isIndicatorLine (trimStart line)
  · obtain ⟨span, hw⟩ := wordsFrom_indicator hl' hi place'
    refine .inl ⟨hi, _, span, hw, ?_⟩
    rw [trim, trimStart, trimStart, List.dropWhile_idempotent]
  · refine .inr ⟨hi, place', ?_⟩
    have ht := wordsFrom_true hl' hi (fun c hc => head?_trimStart_not_blank hc) place'
    rw [ht] at h' ⊢
    exact wordsFrom_trimEnd hl' h'

/-! ### Names -/

theorem nameRest_parts (text : List Char) :
    (nameRest text).2.1 ++ (nameRest text).2.2 = text := by
  fun_induction nameRest text <;> simp_all

/-- A name is made of name characters and points. -/
theorem mem_nameRest (text : List Char) :
    ∀ c ∈ (nameRest text).2.1, isNameChar c ∨ c = '.' := by
  fun_induction nameRest text with
  | case1 c rest hc dotted name after heq ih =>
    rw [heq] at ih
    rintro d (_ | ⟨_, _ | ⟨_, hd⟩⟩)
    · exact .inr rfl
    · exact .inl (isNameChar_of_isNameStart hc)
    · exact ih d hd
  | case3 c rest hne hc dotted name after heq ih =>
    rw [heq] at ih
    rintro d (_ | ⟨_, hd⟩)
    · exact .inl hc
    · exact ih d hd
  | case2 | case4 | case5 => simp

/-- A name behind which no point follows has a single segment. -/
theorem nameRest_of_no_point {text : List Char}
    (h : ∀ c ∈ (text.dropWhile isNameChar).head?, c ≠ '.') :
    nameRest text = (false, text.takeWhile isNameChar, text.dropWhile isNameChar) := by
  have hp : ¬ isNameChar '.' := by decide
  fun_induction nameRest text with
  | case1 c rest hc =>
    rw [List.dropWhile_cons_of_neg hp] at h
    exact absurd rfl (h '.' rfl)
  | case2 c rest hc =>
    rw [List.dropWhile_cons_of_neg hp] at h
    exact absurd rfl (h '.' rfl)
  | case3 c rest hne hc dotted name after heq ih =>
    rw [List.dropWhile_cons_of_pos hc] at h ⊢
    rw [List.takeWhile_cons_of_pos hc]
    cases heq.symm.trans (ih h)
    rfl
  | case4 c rest hne hc => rw [List.takeWhile_cons_of_neg hc, List.dropWhile_cons_of_neg hc]
  | case5 => rfl

/-- A name of a single segment goes as far as its characters do. -/
theorem nameRest_of_not_dotted {text : List Char} (h : (nameRest text).1 = false) :
    (nameRest text).2 = (text.takeWhile isNameChar, text.dropWhile isNameChar) := by
  fun_induction nameRest text with
  | case1 => cases h
  | case2 c rest hc => rfl
  | case3 c rest hne hc dotted name after heq ih =>
    rw [heq] at ih
    rw [List.takeWhile_cons_of_pos hc, List.dropWhile_cons_of_pos hc, ← (Prod.mk.inj (ih h)).1,
      ← (Prod.mk.inj (ih h)).2]
  | case4 c rest hne hc => rw [List.takeWhile_cons_of_neg hc, List.dropWhile_cons_of_neg hc]
  | case5 => rfl

/-! ### The first words of a line -/

/-- The first word of a text that starts with no blank. -/
theorem of_wordsFrom_eq_cons {c : Char} {rest : List Char} {place : Position} {word : Word}
    {words : List Word} (hl : (c :: rest).all isInLine) (hb : isBlank c = false)
    (h : wordsFrom place false (c :: rest) = word :: words) (hs : word.saying ≠ .stray) :
    ∃ count after place', word? false c rest = some (word.saying, count, after) ∧
      words = wordsFrom place' false after := by
  have hp := isPadding_of_not_isBlank hb
  by_cases hc : startsComment c rest
  · rw [wordsFrom_comment_line hp hc hl] at h
    cases h
  · rw [Bool.not_eq_true] at hc
    have hn := ne_newline hl
    rcases hw : word? false c rest with _ | ⟨saying, count, after⟩
    · rw [wordsFrom_stray hp hc hn hw] at h
      cases h
      exact absurd rfl hs
    · rw [wordsFrom_word hp hc hn hw] at h
      cases h
      exact ⟨count, after, _, rfl, rfl⟩

theorem all_trimStart {text : List Char} (hl : text.all isInLine) : (trimStart text).all isInLine :=
  all_of_subset (List.dropWhile_sublist _).subset hl

/-- A mark at the start of the words is one behind the blanks at the start of the text. -/
theorem of_wordsFrom_eq_mark {text : List Char} {place : Position} {m : Mark} {span : Span}
    {words : List Word} (hl : text.all isInLine) (hs : NoStray words)
    (h : wordsFrom place false text = ⟨.mark m, span⟩ :: words) :
    ∃ rest place', trimStart text = m.char :: rest ∧ words = wordsFrom place' false rest := by
  have hno : NoStray (wordsFrom place false text) := by
    rw [h]
    exact hs.cons nofun
  obtain ⟨place', heq⟩ := wordsFrom_trimStart hl (.inl hno)
  have hl' := all_trimStart hl
  have hb : ∀ c ∈ (trimStart text).head?, isBlank c = false :=
    fun c hc => head?_trimStart_not_blank hc
  rw [heq] at h
  generalize trimStart text = front at h hl' hb ⊢
  rcases front with _ | ⟨c, rest⟩
  · rw [wordsFrom] at h
    cases h
  · obtain ⟨count, after, place'', hw, rfl⟩ :=
      of_wordsFrom_eq_cons hl' (hb c rfl) h (by simp)
    rcases word?_cases hw with ⟨-, -, hn⟩ | ⟨-, -, fraction, hn, -⟩ | ⟨-, body, -, -, hn⟩ |
      ⟨m', rfl, rfl, hn⟩
    · split at hn <;> cases hn
    · cases hn
    · cases hn
    · cases hn
      exact ⟨after, place'', rfl, rfl⟩

theorem leadingName?_cons {c : Char} (hc : isNameStart c) (p : Char → Bool) (rest : List Char) :
    leadingName? p (c :: rest) = some (c :: rest.takeWhile p, rest.dropWhile p) :=
  if_pos hc

theorem isNameStart_of_assignmentParts? {c : Char} {rest : List Char}
    (h : assignmentParts? (c :: rest) ≠ none) : isNameStart c := by
  by_contra hc
  refine h ?_
  rw [assignmentParts?, leadingName?, if_neg (show ¬ isTargetStart c from hc)]
  rfl

theorem isNameStart_of_looksLikeCall {c : Char} {rest : List Char}
    (h : looksLikeCall (c :: rest)) : isNameStart c := by
  by_contra hc
  rw [looksLikeCall, leadingName?, if_neg (show ¬ isTargetStart c from hc)] at h
  cases h

theorem assignmentParts?_cons {c : Char} (hc : isNameStart c) (rest : List Char) :
    assignmentParts? (c :: rest) =
      match trimStart (rest.dropWhile isNameChar) with
      | '=' :: value =>
        if (trimStart value).isEmpty then none
        else some (c :: rest.takeWhile isNameChar, trimStart value)
      | _ => none := by
  rw [assignmentParts?, leadingName?_cons hc]
  rfl

/-- What a line is made of that looks like an assignment. -/
theorem of_assignmentParts?_eq_some {line target value : List Char}
    (h : assignmentParts? line = some (target, value)) :
    ∃ c rest more, line = c :: rest ∧ isNameStart c ∧ target = c :: rest.takeWhile isNameChar ∧
      trimStart (rest.dropWhile isNameChar) = '=' :: more ∧ value = trimStart more := by
  rcases line with _ | ⟨c, rest⟩
  · cases h
  have hc := isNameStart_of_assignmentParts? (by rw [h]; exact Option.some_ne_none _)
  rw [assignmentParts?_cons hc] at h
  split at h
  · rename_i more ht
    split at h
    · cases h
    · cases h
      exact ⟨c, rest, more, rfl, hc, rfl, ht, rfl⟩
  · cases h

/-- The right-hand side is a part of the line. -/
theorem subset_of_assignmentParts? {line target value : List Char}
    (h : assignmentParts? line = some (target, value)) : value ⊆ line := by
  obtain ⟨c, rest, more, rfl, -, -, ht, rfl⟩ := of_assignmentParts?_eq_some h
  have hmore : more ⊆ rest := by
    intro d hd
    have hd' : d ∈ trimStart (rest.dropWhile isNameChar) := ht ▸ List.mem_cons_of_mem _ hd
    exact (List.dropWhile_sublist _).subset ((List.dropWhile_sublist _).subset hd')
  exact fun d hd => List.mem_cons_of_mem _ (hmore ((List.dropWhile_sublist _).subset hd))

theorem looksLikeCall_cons {c : Char} (hc : isNameStart c) (rest : List Char) :
    looksLikeCall (c :: rest) =
      ((trimStart (rest.dropWhile fun d => isNameChar d || d == '.')).head? == some '(') := by
  rw [looksLikeCall, leadingName?_cons hc]
  rfl

/-- **A line that starts with a name and an equals sign looks like an assignment.** -/
theorem assignmentParts?_of_words {c : Char} {rest text : List Char} {place : Position}
    {s s' : Span} {words : List Word} (hl : (c :: rest).all isInLine) (hb : isBlank c = false)
    (h : wordsFrom place false (c :: rest) = ⟨.name text, s⟩ :: ⟨.mark .assign, s'⟩ :: words)
    (hs : NoStray words) (hne : words ≠ []) :
    ∃ value place', assignmentParts? (c :: rest) = some (text, value) ∧
      words = wordsFrom place' false value := by
  obtain ⟨count, after, place', hw, heq⟩ := of_wordsFrom_eq_cons hl hb h (by simp)
  obtain ⟨hc, rfl, hdotted, rfl⟩ : isNameStart c ∧ after = (nameRest rest).2.2 ∧
      (nameRest rest).1 = false ∧ text = c :: (nameRest rest).2.1 := by
    rcases word?_cases hw with ⟨hc, rfl, hn⟩ | ⟨-, -, fraction, hn, -⟩ | ⟨-, body, -, -, hn⟩ |
      ⟨m, -, -, hn⟩
    · split at hn
      · cases hn
      · rename_i hd
        cases hn
        exact ⟨hc, rfl, by simpa using hd, rfl⟩
    all_goals cases hn
  have hl' := all_of_word? hw hl
  obtain ⟨more, place'', ht, rfl⟩ := of_wordsFrom_eq_mark hl' hs heq.symm
  rw [nameRest_of_not_dotted hdotted] at ht ⊢
  have hl'' : more.all isInLine := by
    have := all_trimStart hl'
    rw [nameRest_of_not_dotted hdotted, ht] at this
    simp_all
  obtain ⟨place₃, heq⟩ := wordsFrom_trimStart hl'' (.inl hs)
  refine ⟨trimStart more, place₃, ?_, heq⟩
  -- an assignment needs something behind the equals sign, and there is a word
  have hempty : (trimStart more).isEmpty = false := by
    rw [Bool.eq_false_iff]
    intro he
    rw [List.isEmpty_iff.1 he, wordsFrom] at heq
    exact hne heq
  rw [assignmentParts?_cons hc, ht]
  simp [Mark.char, hempty]

/-- A parenthesis behind a name, perhaps after blanks, is not reached within the name. -/
theorem dropWhile_of_paren {p : Char → Bool} (hp : ∀ c, isBlank c → p c = false)
    (hp' : p '(' = false) {after more : List Char} (h : trimStart after = '(' :: more) :
    after.dropWhile p = after := by
  rcases after with _ | ⟨d, after⟩
  · rfl
  · by_cases hb : isBlank d
    · rw [List.dropWhile_cons_of_neg (by simp [hp d hb])]
    · rw [trimStart, List.dropWhile_cons_of_neg hb] at h
      cases h
      rw [List.dropWhile_cons_of_neg (by simp [hp'])]

/-- The first segment of a name ends at a point, or where the whole name ends. -/
theorem trimStart_of_paren {name after more : List Char}
    (hn : ∀ d ∈ name, isNameChar d ∨ d = '.') (h : trimStart after = '(' :: more) :
    ∃ d rest, trimStart ((name ++ after).dropWhile isNameChar) = d :: rest ∧
      (d = '.' ∨ d = '(') := by
  induction name with
  | nil =>
    rw [List.nil_append, dropWhile_of_paren (fun _ => isNameChar_of_isBlank) (by decide) h]
    exact ⟨'(', more, h, .inr rfl⟩
  | cons d name ih =>
    by_cases hd : isNameChar d
    · rw [List.cons_append, List.dropWhile_cons_of_pos hd]
      exact ih fun e he => hn e (List.mem_cons_of_mem _ he)
    · obtain rfl : d = '.' := (hn d List.mem_cons_self).resolve_left hd
      rw [List.cons_append, List.dropWhile_cons_of_neg hd, trimStart,
        List.dropWhile_cons_of_neg (not_isBlank (by decide))]
      exact ⟨'.', _, rfl, .inl rfl⟩

/-- **A line that starts with a name and a parenthesis looks like a call**, and not like an
assignment. -/
theorem looksLikeCall_of_words {c : Char} {rest : List Char} {saying : Saying} {name : String}
    {place : Position} {s s' : Span} {words : List Word} (hl : (c :: rest).all isInLine)
    (hb : isBlank c = false)
    (h : wordsFrom place false (c :: rest) = ⟨saying, s⟩ :: ⟨.mark .leftParen, s'⟩ :: words)
    (hn : saying.name? = some name) (hs : NoStray words) :
    looksLikeCall (c :: rest) ∧ assignmentParts? (c :: rest) = none := by
  obtain ⟨count, after, place', hw, heq⟩ := of_wordsFrom_eq_cons hl hb h (by rintro rfl; cases hn)
  obtain ⟨hc, rfl⟩ : isNameStart c ∧ after = (nameRest rest).2.2 := by
    rcases word?_cases hw with ⟨hc, rfl, -⟩ | ⟨-, -, fraction, hs, -⟩ | ⟨-, body, -, -, hs⟩ |
      ⟨m, -, -, hs⟩
    · exact ⟨hc, rfl⟩
    all_goals
      obtain rfl := hs
      cases hn
  obtain ⟨more, place'', ht, -⟩ := of_wordsFrom_eq_mark (all_of_word? hw hl) hs heq.symm
  have hparts := nameRest_parts rest
  have hmem := mem_nameRest rest
  generalize (nameRest rest).2.2 = after at ht hparts
  generalize (nameRest rest).2.1 = segments at hparts hmem
  subst hparts
  constructor
  · have hp : ∀ d, isBlank d → (isNameChar d || d == '.') = false := by
      intro d hd
      have hpoint : d ≠ '.' := ne_of_isBlank hd (by decide)
      simp [isNameChar_of_isBlank hd, hpoint]
    rw [looksLikeCall_cons hc, List.dropWhile_append_of_pos (by simpa using hmem),
      dropWhile_of_paren hp (by decide) ht, ht]
    rfl
  · obtain ⟨d, tail, hd, hcase⟩ := trimStart_of_paren hmem ht
    rw [assignmentParts?_cons hc, hd]
    rcases hcase with rfl | rfl <;> simp

theorem word?_name {c : Char} (hc : isNameStart c) (rest : List Char) :
    word? false c rest = some (if (nameRest rest).1 then .dotted (c :: (nameRest rest).2.1)
      else .name (c :: (nameRest rest).2.1), rest.length + 1 - (nameRest rest).2.2.length,
      (nameRest rest).2.2) := by
  simp only [word?, Bool.false_eq_true, if_false, if_pos hc]

/-- A name is neither passed over nor a comment. -/
theorem wordsFrom_name {c : Char} (hc : isNameStart c) (rest : List Char) (place : Position) :
    ∃ span place', wordsFrom place false (c :: rest) =
      ⟨if (nameRest rest).1 then .dotted (c :: (nameRest rest).2.1)
        else .name (c :: (nameRest rest).2.1), span⟩ ::
        wordsFrom place' false (nameRest rest).2.2 := by
  obtain ⟨hp, hs, hn⟩ : isPadding c = false ∧ c ≠ '/' ∧ c ≠ '\n' :=
    forall_isBasic (P := fun c => isNameStart c → isPadding c = false ∧ c ≠ '/' ∧ c ≠ '\n')
      (by decide) (isBasic_of_isNameChar (isNameChar_of_isNameStart hc)) hc
  rw [wordsFrom_word hp (by simp [startsComment, hs]) hn (word?_name hc rest)]
  exact ⟨_, _, rfl⟩

/-- There is no line break, and no blank but those that are passed over. -/
def PaddedOnly (text : List Char) : Prop := ∀ c ∈ text, isInLine c ∧ (isBlank c → isPadding c)

theorem PaddedOnly.subset {text part : List Char} (h : PaddedOnly text) (hs : part ⊆ text) :
    PaddedOnly part :=
  fun c hc => h c (hs hc)

theorem PaddedOnly.all {text : List Char} (h : PaddedOnly text) : text.all isInLine :=
  List.all_eq_true.2 fun c hc => (h c hc).1

theorem PaddedOnly.passed {text : List Char} (h : PaddedOnly text) (words : List Word) :
    Passed text words :=
  .inr fun c hc => (h c hc).2

theorem PaddedOnly.trimStart {text : List Char} (h : PaddedOnly text) :
    PaddedOnly (Text.trimStart text) :=
  h.subset (List.dropWhile_sublist _).subset

theorem wordsFrom_assign (rest : List Char) (place : Position) :
    ∃ span place', wordsFrom place false ('=' :: rest) =
      ⟨.mark .assign, span⟩ :: wordsFrom place' false rest := by
  have hw : word? false '=' rest = some (.mark .assign, rest.length + 1 - rest.length, rest) := by
    have hd : ¬ isDecimalDigit '=' := by
      rw [isDecimalDigit_eq_isDigit (by decide)]
      decide
    simp only [word?, Bool.false_eq_true, if_false]
    rw [if_neg (by decide), if_neg hd, if_neg (by decide), if_neg (by decide)]
    rfl
  rw [wordsFrom_word (by decide) (by simp [startsComment]) (by decide) hw]
  exact ⟨_, _, rfl⟩

/-- **A line that looks like an assignment starts with a name and an equals sign.** -/
theorem words_of_assignmentParts? {line target value : List Char} (hp : PaddedOnly line)
    (h : assignmentParts? line = some (target, value)) (place : Position) :
    ∃ s s' place', wordsFrom place false line =
      ⟨.name target, s⟩ :: ⟨.mark .assign, s'⟩ :: wordsFrom place' false value := by
  obtain ⟨c, rest, more, rfl, hc, rfl, ht, rfl⟩ := of_assignmentParts?_eq_some h
  -- what follows the name is the equals sign, perhaps behind blanks
  have hpoint : ∀ d ∈ (rest.dropWhile isNameChar).head?, d ≠ '.' := by
    rintro _ hd rfl
    obtain ⟨tail, hd⟩ := List.head?_eq_some_iff.1 hd
    rw [hd, trimStart, List.dropWhile_cons_of_neg (not_isBlank (by decide))] at ht
    cases ht
  have hafter : PaddedOnly (rest.dropWhile isNameChar) :=
    hp.subset fun d hd => List.mem_cons_of_mem _ ((List.dropWhile_sublist _).subset hd)
  have hmore : PaddedOnly more := by
    have h := hafter.trimStart
    rw [ht] at h
    exact h.subset fun d hd => List.mem_cons_of_mem _ hd
  obtain ⟨s, place₁, hname⟩ := wordsFrom_name hc rest place
  rw [nameRest_of_no_point hpoint] at hname
  obtain ⟨place₂, hgap⟩ :=
    wordsFrom_trimStart hafter.all (hafter.passed (wordsFrom place₁ false _))
  obtain ⟨s', place₃, hassign⟩ := wordsFrom_assign more place₂
  obtain ⟨place₄, hvalue⟩ := wordsFrom_trimStart hmore.all (hmore.passed (wordsFrom place₃ false _))
  refine ⟨s, s', place₄, ?_⟩
  rw [hname, hgap, ht, hassign, hvalue]
  rfl

end ChartScript.Grammar
