import ChartScript.Proofs.Characters
import ChartScript.Proofs.Statements
import ChartScript.Syntax.Source

/-!
# The words of a source, line by line

The grammar cuts a source into words as a whole, and the line reader takes it line by line without
the blanks at the ends of a line. This file says that the first way has no use of looking beyond a
line. A word never goes on over a *margin*, a text that is blank up to the end of its first line
(`ChartScript.Grammar.IsMargin`), so that the words of a text before a margin are words of their own
(`ChartScript.Grammar.wordsFrom_append`). A line break is a margin, and so are the blanks at the end of
a line.

With `ChartScript.Proofs.Statements` this takes a whole source apart into lines:
`ChartScript.Grammar.gives_of_lines` and `ChartScript.Grammar.statementRow_of_lines`.
-/

namespace ChartScript.Grammar

open ChartScript.Text
open ChartScript.Syntax (stringBody? Mark lines)

/-! ### Characters of a line -/

/-- What is true of all characters is true of the first one and of the others. -/
theorem of_all_cons {p : Char → Bool} {c : Char} {rest : List Char} (h : (c :: rest).all p) :
    p c ∧ rest.all p := by
  rwa [List.all_cons, Bool.and_eq_true] at h

/-- A line starts with no line break. -/
theorem ne_newline {c : Char} {rest : List Char} (h : (c :: rest).all isInLine) : c ≠ '\n' :=
  bne_iff_ne.1 (of_all_cons h).1

/-- Inside a line there is nothing behind a comment. -/
theorem dropWhile_isInLine {text : List Char} (h : text.all isInLine) :
    text.dropWhile isInLine = [] :=
  List.dropWhile_eq_nil_iff.2 (List.all_eq_true.1 h)

/-! ### Margins -/

/-- A margin is blank up to the end of its first line. -/
def IsMargin (tail : List Char) : Prop := ∀ c ∈ tail.takeWhile isInLine, isBlank c

theorem isMargin_newline (text : List Char) : IsMargin ('\n' :: text) := by
  simp [IsMargin, isInLine]

/-- A margin starts with a blank. -/
theorem IsMargin.head {c : Char} {tail : List Char} (h : IsMargin (c :: tail)) : isBlank c := by
  by_cases hc : isInLine c
  · exact h c (by simp [hc])
  · obtain rfl : c = '\n' := by simpa [isInLine] using hc
    exact isBlank_newline

/-- A margin goes on no word. -/
theorem IsMargin.not_isWordChar {tail : List Char} (h : IsMargin tail) :
    ∀ c ∈ tail.head?, isWordChar c = false := by
  rcases tail with _ | ⟨c, tail⟩
  · simp
  · rintro _ ⟨⟩
    exact isWordChar_of_isBlank h.head

section Margin

variable {tail : List Char} (h : IsMargin tail) (text : List Char)

include h

theorem nameRest_margin : nameRest tail = (false, [], tail) := by
  rcases tail with _ | ⟨c, tail⟩
  · rfl
  · have hb := h.head
    rw [nameRest.eq_def]
    split
    · rename_i heq
      cases heq
      exact absurd hb (not_isBlank (by decide))
    · rename_i heq
      cases heq
      rw [if_neg (by simp [isNameChar_of_isBlank hb])]
    · rename_i heq
      cases heq

/-- A name does not go over a margin. -/
theorem nameRest_append : nameRest (text ++ tail) =
    ((nameRest text).1, (nameRest text).2.1, (nameRest text).2.2 ++ tail) := by
  fun_induction nameRest text with
  | case1 c rest hc dotted name after heq ih =>
    simp only [List.cons_append]
    rw [nameRest]
    simp [hc, ih, heq]
  | case2 c rest hc =>
    simp only [List.cons_append]
    rw [nameRest]
    simp [hc]
  | case3 c rest hne hc dotted name after heq ih =>
    have hpoint := ne_point_of_isWordChar (isWordChar_of_isNameChar hc)
    rw [List.cons_append, nameRest]
    · simp [hc, ih, heq]
    · rintro d rest rfl
      exact absurd rfl hpoint
  | case4 c rest hne hc =>
    rw [List.cons_append, nameRest.eq_def]
    split
    · rename_i d more heq
      obtain ⟨rfl, ht⟩ := List.cons.inj heq
      -- the point is the last character of the name, so that a blank comes next
      obtain rfl : rest = [] := List.eq_nil_iff_forall_not_mem.2 fun e he => by
        rcases rest with _ | ⟨e, rest⟩
        · cases he
        · exact hne e rest rfl rfl
      obtain rfl : tail = d :: more := ht
      rw [if_neg (by simp [isNameStart_of_isBlank h.head])]
      rfl
    · rename_i heq
      cases heq
      rw [if_neg hc]
    · rename_i heq
      cases heq
  | case5 => exact nameRest_margin h

theorem takeWhile_append {p : Char → Bool} (hp : ∀ c, isBlank c → p c = false) :
    (text ++ tail).takeWhile p = text.takeWhile p := by
  induction text with
  | nil =>
    rcases tail with _ | ⟨c, tail⟩
    · rfl
    · simp [hp c h.head]
  | cons c text ih => simp only [List.cons_append, List.takeWhile_cons, ih]

theorem dropWhile_append {p : Char → Bool} (hp : ∀ c, isBlank c → p c = false) :
    (text ++ tail).dropWhile p = text.dropWhile p ++ tail := by
  induction text with
  | nil =>
    rcases tail with _ | ⟨c, tail⟩
    · rfl
    · simp [hp c h.head]
  | cons c text ih =>
    simp only [List.cons_append, List.dropWhile_cons, ih]
    split <;> rfl

/-- A fraction does not go over a margin. -/
theorem fractionRest_append :
    fractionRest (text ++ tail) = ((fractionRest text).1, (fractionRest text).2 ++ tail) := by
  have hp : ∀ c, isBlank c → isDecimalDigit c = false := fun _ => isDecimalDigit_of_isBlank
  rcases text with _ | ⟨c, _ | ⟨d, text⟩⟩
  · rcases tail with _ | ⟨c, tail⟩
    · rfl
    · have hb := h.head
      rw [List.nil_append, fractionRest]
      · rfl
      · rintro d rest ⟨⟩
        exact absurd hb (not_isBlank (by decide))
  · rcases tail with _ | ⟨d, tail⟩
    · simp
    · have hd := hp d h.head
      by_cases hc : c = '.'
      · rw [hc]
        simp [fractionRest, hd]
      · simp [fractionRest, hc]
  · by_cases hc : c = '.'
    · rw [hc]
      by_cases hd : isDecimalDigit d
      · simp [fractionRest, hd, takeWhile_append h _ hp, dropWhile_append h _ hp]
      · simp [fractionRest, hd]
    · simp [fractionRest, hc]

end Margin

/-- A quote, of the one or the other kind. -/
def IsQuote (c : Char) : Prop := c = '"' ∨ c = '\''

theorem IsQuote.ne_backslash {c : Char} (h : IsQuote c) : c ≠ '\\' := by
  rcases h with rfl | rfl <;> decide

/-- No quote stands on the first line of a margin. -/
theorem IsMargin.no_quote {quote : Char} (hq : IsQuote quote) {u v : List Char}
    (h : IsMargin (u ++ quote :: v)) : ¬ u.all isInLine := by
  intro hu
  have hl : isInLine quote := by
    rcases hq with rfl | rfl <;> decide
  have hb : isBlank quote := by
    refine h quote ?_
    rw [List.takeWhile_append_of_pos (by simpa using hu), List.takeWhile_cons_of_pos hl]
    simp
  rcases hq with rfl | rfl <;> exact absurd hb (not_isBlank (by decide))

section Strings

variable {quote : Char} (hq : IsQuote quote) {text body after : List Char}

include hq

/-- A string that ends in a text ends there whatever follows. -/
theorem stringBody?_append_right (hs : stringBody? quote text = some (body, after))
    (tail : List Char) : stringBody? quote (text ++ tail) = some (body, after ++ tail) := by
  fun_induction stringBody? quote text generalizing body after with
  | case1 => cases hs
  | case2 c rest ih =>
    obtain ⟨⟨b, a⟩, hb, heq⟩ := Option.map_eq_some_iff.1 hs
    cases heq
    rw [List.cons_append, List.cons_append, stringBody?, ih hb]
    rfl
  | case3 rest hne =>
    cases hs
    rw [List.cons_append, stringBody?, if_pos rfl]
    exact fun c rest heq => absurd heq hq.ne_backslash
  | case4 c rest hne hc ih =>
    obtain ⟨⟨b, a⟩, hb, heq⟩ := Option.map_eq_some_iff.1 hs
    cases heq
    rw [List.cons_append, stringBody?, if_neg hc, ih hb]
    · rfl
    · rintro d more rfl hr
      rcases rest with _ | ⟨e, rest⟩
      · cases hb
      · exact hne e rest rfl rfl

/-- A string that ends on its line does not go over a margin. -/
theorem stringBody?_of_append {tail : List Char} (h : IsMargin tail)
    (hs : stringBody? quote (text ++ tail) = some (body, after)) (hb : body.all isInLine) :
    ∃ rest, stringBody? quote text = some (body, rest) ∧ after = rest ++ tail := by
  fun_induction stringBody? quote text generalizing body after with
  | case1 =>
    rw [List.nil_append] at hs
    rw [← Syntax.stringBody?_append hs] at h
    exact absurd hb (h.no_quote hq)
  | case2 c rest ih =>
    rw [List.cons_append, List.cons_append, stringBody?] at hs
    obtain ⟨⟨b, a⟩, hb', heq⟩ := Option.map_eq_some_iff.1 hs
    cases heq
    simp only [List.all_cons, Bool.and_eq_true] at hb
    obtain ⟨rest', hr, rfl⟩ := ih hb' hb.2.2
    exact ⟨rest', by rw [hr]; rfl, rfl⟩
  | case3 rest hne =>
    rw [List.cons_append, stringBody?, if_pos rfl] at hs
    · cases hs
      exact ⟨rest, rfl, rfl⟩
    · exact fun c rest heq => absurd heq hq.ne_backslash
  | case4 c rest hne hc ih =>
    by_cases hlast : c = '\\' ∧ rest = []
    · -- the backslash protects a character of the margin
      obtain ⟨rfl, rfl⟩ := hlast
      have happ := Syntax.stringBody?_append hs
      rcases body with _ | ⟨d, body⟩
      · exact absurd (List.cons.inj happ).1.symm hq.ne_backslash.symm
      · obtain ⟨rfl, ht⟩ := List.cons.inj happ
        simp only [List.all_cons, Bool.and_eq_true] at hb
        obtain rfl : tail = body ++ quote :: after := ht.symm
        exact absurd hb.2 (h.no_quote hq)
    · rw [List.cons_append, stringBody?, if_neg hc] at hs
      · obtain ⟨⟨b, a⟩, hb', heq⟩ := Option.map_eq_some_iff.1 hs
        cases heq
        simp only [List.all_cons, Bool.and_eq_true] at hb
        obtain ⟨rest', hr, rfl⟩ := ih hb' hb.2
        exact ⟨rest', by rw [hr]; rfl, rfl⟩
      · rintro d more rfl hr
        rcases rest with _ | ⟨e, rest⟩
        · exact hlast ⟨rfl, rfl⟩
        · exact hne e rest rfl rfl

end Strings

/-! ### A word before a margin -/

/-- A word that starts no indicator line does not go over a margin. -/
theorem word?_append {tail : List Char} (h : IsMargin tail) (c : Char) (rest : List Char) :
    word? false c (rest ++ tail) =
      (word? false c rest).map fun (saying, count, after) => (saying, count, after ++ tail) := by
  have hp : ∀ c, isBlank c → isDecimalDigit c = false := fun _ => isDecimalDigit_of_isBlank
  have hlen : ∀ n, rest.length + tail.length + 1 - (n + tail.length) = rest.length + 1 - n := by
    omega
  simp only [word?, Bool.false_eq_true, if_false]
  split
  · rw [nameRest_append h]
    simp [hlen]
  · split
    · rw [dropWhile_append h _ hp, takeWhile_append h _ hp, fractionRest_append h]
      simp [hlen]
    · split
      · rw [← List.cons_append, fractionRest_append h]
        rcases fractionRest ('.' :: rest) with ⟨_ | fraction, after⟩
        · rfl
        · simp [hlen]
      · split
        · rename_i hc
          have hq : IsQuote c := by simpa [IsQuote] using hc
          rcases hs : stringBody? c rest with _ | ⟨body, after⟩
          · rcases ht : stringBody? c (rest ++ tail) with _ | ⟨body, after⟩
            · rfl
            · have hb : ¬ body.all isInLine := by
                intro hb
                obtain ⟨rest', hr, -⟩ := stringBody?_of_append hq h ht hb
                rw [hs] at hr
                cases hr
              simp [hb]
          · rw [stringBody?_append_right hq hs]
            by_cases hb : body.all isInLine <;> simp [hb, hlen]
        · split
          · simp
          · rfl

/-! ### Indicator lines -/

theorem indicatorLine?_eq (text : List Char) : indicatorLine? text =
    if Syntax.isIndicatorLine text then some (text.takeWhile isInLine, text.dropWhile isInLine)
    else none :=
  rfl

/-- Nothing that goes on no word belongs to the word that starts an indicator line. -/
theorem isPrefixOf_append {tail : List Char} (h : ∀ c ∈ tail.head?, isWordChar c = false)
    (text : List Char) : ∀ word : List Char, (∀ c ∈ word, isWordChar c) →
      word.isPrefixOf (text ++ tail) = word.isPrefixOf text := by
  intro word hw
  induction word generalizing text with
  | nil => simp
  | cons c word ih =>
    rcases text with _ | ⟨d, text⟩
    · rcases tail with _ | ⟨d, tail⟩
      · rfl
      · have hne : c ≠ d := by
          rintro rfl
          have := hw c List.mem_cons_self
          rw [h c rfl] at this
          cases this
        simp [List.isPrefixOf, hne]
    · simp only [List.cons_append, List.isPrefixOf]
      rw [ih text fun e he => hw e (List.mem_cons_of_mem _ he)]

/-- Whether a line is an indicator line does not depend on what follows a word. -/
theorem isIndicatorLine_append {tail : List Char} (h : ∀ c ∈ tail.head?, isWordChar c = false)
    (text : List Char) : Syntax.isIndicatorLine (text ++ tail) = Syntax.isIndicatorLine text := by
  have hword : "indicator".toList = indicatorWord := rfl
  have hw : ∀ c ∈ indicatorWord, isWordChar c := forall_isWordChar (by decide)
  simp only [Syntax.isIndicatorLine, hword]
  rw [isPrefixOf_append h text _ hw]
  by_cases hp : indicatorWord.isPrefixOf text
  · obtain ⟨rest, rfl⟩ := List.isPrefixOf_iff_prefix.1 hp
    rw [List.append_assoc, List.drop_left, List.drop_left]
    rcases rest with _ | ⟨c, rest⟩
    · rcases tail with _ | ⟨c, tail⟩
      · rfl
      · simp [h c rfl]
    · rfl
  · simp only [hp, Bool.false_and]

theorem word?_true (c : Char) (rest : List Char) : word? true c rest =
    match indicatorLine? (c :: rest) with
    | some (line, after) => some (.indicator line, rest.length + 1 - after.length, after)
    | none => word? false c rest := by
  rcases h : indicatorLine? (c :: rest) with _ | ⟨line, after⟩
  · simp only [word?, if_true, h, Bool.false_eq_true, if_false]
  · simp only [word?, if_true, h]

/-- An indicator line does not go over a margin that starts with a line break. -/
theorem word?_true_append {tail : List Char} (h : IsMargin tail)
    (hs : tail.dropWhile isInLine = tail) {c : Char} {rest : List Char}
    (hl : (c :: rest).all isInLine) :
    word? true c (rest ++ tail) =
      (word? true c rest).map fun (saying, count, after) => (saying, count, after ++ tail) := by
  have ht : tail.takeWhile isInLine = [] := by
    have happ := List.takeWhile_append_dropWhile (p := isInLine) (l := tail)
    rw [hs] at happ
    exact List.append_left_eq_self.1 happ
  rw [word?_true, word?_true, indicatorLine?_eq, indicatorLine?_eq, ← List.cons_append,
    isIndicatorLine_append h.not_isWordChar]
  have hl' : ∀ d ∈ c :: rest, isInLine d := by simpa using hl
  rw [List.takeWhile_append_of_pos hl', List.dropWhile_append_of_pos hl', ht, hs,
    List.takeWhile_eq_self_iff.2 hl', List.dropWhile_eq_nil_iff.2 hl']
  by_cases hi : Syntax.isIndicatorLine (c :: rest)
  · simp [hi]
    omega
  · simp only [hi]
    exact word?_append h c rest

/-! ### What a word leaves -/

theorem nameRest_suffix (text : List Char) : (nameRest text).2.2 <:+ text := by
  fun_induction nameRest text with
  | case1 c rest hc dotted name after heq ih =>
    rw [heq] at ih
    exact ih.trans ⟨['.', c], rfl⟩
  | case3 c rest hne hc dotted name after heq ih =>
    rw [heq] at ih
    exact ih.trans ⟨[c], rfl⟩
  | case2 | case4 | case5 => exact List.suffix_rfl

theorem fractionRest_suffix (text : List Char) : (fractionRest text).2 <:+ text := by
  fun_cases fractionRest text
  · rename_i c rest hc
    exact (List.dropWhile_suffix _).trans ⟨['.', c], rfl⟩
  · exact List.suffix_rfl
  · exact List.suffix_rfl

theorem suffix_of_suffix_cons {c : Char} {text after : List Char} (h : after <:+ c :: text)
    (hl : after.length < (c :: text).length) : after <:+ text := by
  rcases List.suffix_cons_iff.1 h with rfl | h
  · omega
  · exact h

/-- What follows a word is the end of the text. -/
theorem word?_suffix {atStart : Bool} {c : Char} {rest after : List Char} {saying : Saying}
    {count : Nat} (h : word? atStart c rest = some (saying, count, after)) : after <:+ rest := by
  simp only [word?] at h
  split at h
  · rename_i line after' hi
    cases h
    split at hi
    · have hlen := indicatorLine?_length hi
      rw [indicatorLine?] at hi
      split at hi
      · cases hi
        exact suffix_of_suffix_cons (List.dropWhile_suffix _) hlen
      · cases hi
    · cases hi
  · split at h
    · cases h
      exact nameRest_suffix rest
    · split at h
      · cases h
        exact (fractionRest_suffix _).trans (List.dropWhile_suffix _)
      · split at h
        · split at h
          · rename_i hf
            cases h
            have hs := fractionRest_suffix ('.' :: rest)
            rw [hf] at hs
            exact suffix_of_suffix_cons hs (fractionRest_length_lt hf)
          · cases h
        · split at h
          · split at h
            · rename_i hb
              split at h
              · cases h
                exact ⟨_, by rw [← Syntax.stringBody?_append hb, List.append_cons]⟩
              · cases h
            · cases h
          · split at h
            · cases h
              exact List.suffix_rfl
            · cases h

/-- What holds of the characters of a text holds of those behind its first word. -/
theorem all_of_word? {atStart : Bool} {c : Char} {rest after : List Char} {saying : Saying}
    {count : Nat} (hw : word? atStart c rest = some (saying, count, after)) {p : Char → Bool}
    (h : (c :: rest).all p) : after.all p := by
  simp only [List.all_eq_true] at h ⊢
  exact fun d hd => h d (List.mem_cons_of_mem _ ((word?_suffix hw).subset hd))

/-- A word is no line break and no stray. -/
theorem word?_saying {atStart : Bool} {c : Char} {rest after : List Char} {saying : Saying}
    {count : Nat} (h : word? atStart c rest = some (saying, count, after)) :
    saying ≠ .newline ∧ saying ≠ .stray := by
  simp only [word?] at h
  split at h
  · cases h
    simp
  · split at h
    · cases h
      split <;> simp
    · split at h
      · cases h
        simp
      · split at h
        · split at h <;> cases h
          simp
        · split at h
          · split at h
            · split at h <;> cases h
              simp
            · cases h
          · split at h <;> cases h
            simp

/-! ### The words of a text -/

theorem wordsFrom_padding {c : Char} (h : isPadding c) (place : Position) (atStart : Bool)
    (rest : List Char) :
    wordsFrom place atStart (c :: rest) = wordsFrom (place.right 1) atStart rest := by
  rw [wordsFrom, if_pos h]

theorem wordsFrom_newline (place : Position) (atStart : Bool) (rest : List Char) :
    wordsFrom place atStart ('\n' :: rest) =
      ⟨.newline, place, place.nextLine⟩ :: wordsFrom place.nextLine true rest := by
  rw [wordsFrom, if_neg (by decide), if_neg (by simp [startsComment]), if_pos rfl]

section Words

variable {c : Char} {rest : List Char} (hp : isPadding c = false)

include hp

theorem wordsFrom_comment (hc : startsComment c rest) (place : Position) (atStart : Bool) :
    wordsFrom place atStart (c :: rest) =
      wordsFrom (place.right (1 + (rest.takeWhile isInLine).length)) atStart
        (rest.dropWhile isInLine) := by
  rw [wordsFrom, if_neg (by simp [hp]), if_pos hc]

variable (hc : startsComment c rest = false) (hn : c ≠ '\n')

include hc hn

theorem wordsFrom_stray {atStart : Bool} (hw : word? atStart c rest = none) (place : Position) :
    wordsFrom place atStart (c :: rest) = [⟨.stray, place, place.right 1⟩] := by
  rw [wordsFrom, if_neg (by simp [hp]), if_neg (by simp [hc]), if_neg hn]
  split
  · rfl
  · rename_i heq
    rw [hw] at heq
    cases heq

theorem wordsFrom_word {atStart : Bool} {saying : Saying} {count : Nat} {after : List Char}
    (hw : word? atStart c rest = some (saying, count, after)) (place : Position) :
    wordsFrom place atStart (c :: rest) =
      ⟨saying, place, place.right count⟩ :: wordsFrom (place.right count) false after := by
  rw [wordsFrom, if_neg (by simp [hp]), if_neg (by simp [hc]), if_neg hn]
  split
  · rename_i heq
    rw [hw] at heq
    cases heq
  · rename_i heq
    rw [hw] at heq
    cases heq
    rfl

end Words

/-- A comment does not start at a margin. -/
theorem startsComment_append {tail : List Char} (h : IsMargin tail) (c : Char) (rest : List Char) :
    startsComment c (rest ++ tail) = startsComment c rest := by
  rcases rest with _ | ⟨d, rest⟩
  · rcases tail with _ | ⟨d, tail⟩
    · rfl
    · have hd : (d == '/' || d == '*') = false :=
        forall_isBlank (P := fun d => (d == '/' || d == '*') = false) (by decide) h.head
      simp only [startsComment, List.nil_append, List.head?_cons, Option.any_some, hd]
      rfl
  · rfl

/-- There is no stray word among words. -/
def NoStray (words : List Word) : Prop := ∀ word ∈ words, word.saying ≠ .stray

/-- **Words do not go over a margin**: what follows a text without strays are words of their own. A
text that ends with a comment takes the first line of the margin with it. -/
theorem wordsFrom_append {tail : List Char} (h : IsMargin tail) {text : List Char}
    (hl : text.all isInLine) {atStart : Bool} (hs : atStart → tail.dropWhile isInLine = tail)
    (place : Position) :
    (¬ NoStray (wordsFrom place atStart text) ∧
        wordsFrom place atStart (text ++ tail) = wordsFrom place atStart text) ∨
      ∃ place' atStart' tail', (tail' = tail ∨ tail' = tail.dropWhile isInLine) ∧
        wordsFrom place atStart (text ++ tail) =
          wordsFrom place atStart text ++ wordsFrom place' atStart' tail' := by
  fun_induction wordsFrom place atStart text with
  | case1 place atStart => exact .inr ⟨place, atStart, tail, .inl rfl, rfl⟩
  | case2 place atStart c rest hp ih =>
    rw [List.cons_append, wordsFrom_padding hp]
    exact ih (of_all_cons hl).2 hs
  | case3 place atStart c rest hp hc hlen ih =>
    have hl' : ∀ d ∈ rest, isInLine d := List.all_eq_true.1 (of_all_cons hl).2
    rw [List.cons_append, wordsFrom_comment (by simpa using hp)
      (by rwa [startsComment_append h]), List.dropWhile_append_of_pos hl',
      List.dropWhile_eq_nil_iff.2 hl', wordsFrom]
    exact .inr ⟨_, _, _, .inr rfl, rfl⟩
  | case4 place atStart rest hp hc =>
    simp [isInLine] at hl
  | case5 place atStart c rest hp hc hn hw =>
    refine .inl ⟨fun hno => hno _ (List.mem_singleton.2 rfl) rfl, ?_⟩
    rw [List.cons_append, wordsFrom_stray (by simpa using hp)
      (by rw [startsComment_append h]; simpa using hc) hn]
    cases atStart with
    | false => rw [word?_append h, hw]; rfl
    | true => rw [word?_true_append h (hs rfl) hl, hw]; rfl
  | case6 place atStart c rest hp hc hn saying count after hw hlen ih =>
    have hl' : after.all isInLine := all_of_word? hw hl
    have hw' : word? atStart c (rest ++ tail) = some (saying, count, after ++ tail) := by
      cases atStart with
      | false => rw [word?_append h, hw]; rfl
      | true => rw [word?_true_append h (hs rfl) hl, hw]; rfl
    rw [List.cons_append, wordsFrom_word (by simpa using hp)
      (by rw [startsComment_append h]; simpa using hc) hn hw']
    rcases ih hl' (by simp) with ⟨hno, heq⟩ | ⟨place', atStart', tail', ht, heq⟩
    · refine .inl ⟨fun h => hno fun w hmem => h w (List.mem_cons_of_mem _ hmem), ?_⟩
      rw [heq]
    · refine .inr ⟨place', atStart', tail', ht, ?_⟩
      rw [heq, List.cons_append]

/-! ### The lines of a source -/

/-- A text is a line, or a line and a line break before a text. -/
theorem lines_induction {P : List Char → Prop} (last : ∀ line, line.all isInLine → P line)
    (more : ∀ line text, line.all isInLine → P text → P (line ++ '\n' :: text)) (text : List Char) :
    P text := by
  induction hn : text.length using Nat.strong_induction_on generalizing text with
  | _ n ih =>
    rcases hr : text.dropWhile isInLine with _ | ⟨c, rest⟩
    · exact last text (by simpa using List.dropWhile_eq_nil_iff.1 hr)
    · have htext := List.takeWhile_append_dropWhile (p := isInLine) (l := text)
      have hc : isInLine c = false := by
        have hd := List.head?_dropWhile_not isInLine text
        rw [hr] at hd
        simpa using hd
      obtain rfl : c = '\n' := by simpa [isInLine] using hc
      rw [hr] at htext
      rw [← htext]
      refine more _ _ (List.all_eq_true.2 fun d hd => List.mem_takeWhile_imp hd) (ih _ ?_ rest rfl)
      rw [← hn, ← htext]
      simp
      omega

/-- A text without line breaks is a single line. -/
theorem lines_eq_singleton {line : List Char} (h : line.all isInLine) : lines line = [line] := by
  induction line with
  | nil => rfl
  | cons c line ih =>
    simp only [List.all_cons, Bool.and_eq_true] at h
    have hc : c ≠ '\n' := by simpa [isInLine] using h.1
    rw [lines, if_neg hc, ih h.2]

theorem lines_line_append {line : List Char} (h : line.all isInLine) (text : List Char) :
    lines (line ++ '\n' :: text) = line :: lines text := by
  rw [Syntax.lines_append, lines_eq_singleton h]
  rfl

/-- A line has no line breaks among its words. -/
theorem isInside_of_mem_wordsFrom {text : List Char} (hl : text.all isInLine) (atStart : Bool)
    (place : Position) : ∀ word ∈ wordsFrom place atStart text, word.isInside := by
  fun_induction wordsFrom place atStart text with
  | case1 => simp
  | case2 place atStart c rest hp ih => exact ih (of_all_cons hl).2
  | case3 place atStart c rest hp hc hlen ih =>
    refine ih ?_
    rw [dropWhile_isInLine (of_all_cons hl).2]
    rfl
  | case4 => simp [isInLine] at hl
  | case5 => simp [Word.isInside]
  | case6 place atStart c rest hp hc hn saying count after hw hlen ih =>
    have hl' : after.all isInLine := all_of_word? hw hl
    intro word hword
    rcases List.mem_cons.1 hword with rfl | hword
    · have hs := (word?_saying hw).1
      cases saying <;> first | rfl | exact absurd rfl hs
    · exact ih hl' word hword

/-- The words of a source are those of its first line and, unless there is a stray among them, those
of the further lines. -/
theorem words_line_append {line : List Char} (hl : line.all isInLine) (text : List Char)
    (place : Position) :
    firstLine (wordsFrom place true (line ++ '\n' :: text)) = wordsFrom place true line ∧
      (NoStray (wordsFrom place true line) → ∃ span place',
        furtherLines (wordsFrom place true (line ++ '\n' :: text)) =
          ⟨.newline, span⟩ :: wordsFrom place' true text) := by
  have hin := isInside_of_mem_wordsFrom hl true place
  have hd : ('\n' :: text).dropWhile isInLine = '\n' :: text := by simp [isInLine]
  rcases wordsFrom_append (isMargin_newline text) hl (fun _ => hd) place with
    ⟨hno, heq⟩ | ⟨place', atStart', tail', ht, heq⟩
  · rw [heq]
    exact ⟨List.takeWhile_eq_self_iff.2 hin, fun h => absurd h hno⟩
  · obtain rfl : tail' = '\n' :: text := by
      rcases ht with rfl | rfl
      · rfl
      · exact hd
    rw [heq, wordsFrom_newline, firstLine, furtherLines, List.takeWhile_append_of_pos hin,
      List.dropWhile_append_of_pos hin]
    exact ⟨by simp [Word.isInside], fun _ => ⟨_, _, by simp [Word.isInside]; exact ⟨rfl, rfl⟩⟩⟩

theorem NoStray.cons {word : Word} {words : List Word} (hw : word.saying ≠ .stray)
    (h : NoStray words) : NoStray (word :: words) :=
  List.forall_mem_cons.2 ⟨hw, h⟩

theorem AllPlain.noStray {words : List Word} (h : AllPlain words) : NoStray words := by
  rintro ⟨saying, span⟩ hword rfl
  exact nomatch h _ hword

/-- A line that fits has no stray. -/
theorem Fits.noStray {words : List Word} (h : Fits words) : NoStray words := by
  cases h with
  | nothing => simp [NoStray]
  | indicator => simp [NoStray]
  | assignment text s s' hp => exact .cons nofun (.cons nofun hp.noStray)
  | call s s' hn hp =>
    refine .cons ?_ (.cons nofun hp.noStray)
    rintro rfl
    cases hn

/-- A row without line breaks is its own first line. -/
theorem firstLine_wordsFrom {line : List Char} (hl : line.all isInLine) (place : Position) :
    firstLine (wordsFrom place true line) = wordsFrom place true line :=
  List.takeWhile_eq_self_iff.2 (isInside_of_mem_wordsFrom hl true place)

theorem furtherLines_wordsFrom {line : List Char} (hl : line.all isInLine) (place : Position) :
    furtherLines (wordsFrom place true line) = [] :=
  List.dropWhile_eq_nil_iff.2 (isInside_of_mem_wordsFrom hl true place)

/-- **A source that is read is read line by line.** -/
theorem gives_of_lines (source : List Char) (place : Position) (statements : List Statement)
    (h : statementRow (wordsFrom place true source) = .ok statements) :
    ∃ groups, List.Forall₂ (fun line group => ∃ place, Gives (wordsFrom place true line) group)
      (lines source) groups ∧ statements = groups.flatten := by
  induction source using lines_induction generalizing place statements with
  | last line hl =>
    obtain ⟨first, more, hg, hm, rfl⟩ := gives_of_statementRow h
    rw [firstLine_wordsFrom hl] at hg
    rw [furtherLines_wordsFrom hl, statementRow_nil] at hm
    cases hm
    rw [lines_eq_singleton hl]
    exact ⟨[first], .cons ⟨place, hg⟩ .nil, by simp⟩
  | more line text hl ih =>
    obtain ⟨first, more, hg, hm, rfl⟩ := gives_of_statementRow h
    obtain ⟨hf, hrest⟩ := words_line_append hl text place
    rw [hf] at hg
    obtain ⟨span, place', hrest⟩ := hrest hg.fits.noStray
    rw [hrest, statementRow_newline] at hm
    obtain ⟨groups, hgroups, rfl⟩ := ih place' more hm
    rw [lines_line_append hl]
    exact ⟨first :: groups, .cons ⟨place, hg⟩ hgroups, by simp⟩

/-- **A source of which every line fits is read.** -/
theorem statementRow_of_lines (source : List Char)
    (h : ∀ line ∈ lines source, ∀ place, Fits (wordsFrom place true line)) (place : Position) :
    ∃ statements, statementRow (wordsFrom place true source) = .ok statements := by
  induction source using lines_induction generalizing place with
  | last line hl =>
    rw [lines_eq_singleton hl] at h
    refine statementRow_of_fits ?_ ⟨[], by rw [furtherLines_wordsFrom hl, statementRow_nil]⟩
    rw [firstLine_wordsFrom hl]
    exact h line List.mem_cons_self place
  | more line text hl ih =>
    rw [lines_line_append hl] at h
    obtain ⟨hf, hrest⟩ := words_line_append hl text place
    have hfits := h line List.mem_cons_self place
    obtain ⟨span, place', hrest⟩ := hrest hfits.noStray
    obtain ⟨more, hm⟩ := ih (fun l hmem => h l (List.mem_cons_of_mem _ hmem)) place'
    refine statementRow_of_fits ?_ ⟨more, ?_⟩
    · rw [hf]
      exact hfits
    · rw [hrest, statementRow_newline]
      exact hm

end ChartScript.Grammar
