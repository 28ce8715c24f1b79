import ChartScript.Proofs.Meaning
import ChartScript.Proofs.Reading

/-!
# The line reader and the grammar agree

A source can be read in two ways, line by line (`ChartScript.Program.read`) and by the grammar
(`ChartScript.Grammar.readByGrammar`). This file compares the two on all sources.

* What the line reader takes in full the grammar takes, too, and makes the same program of it, if the
  source has no characters but printable ones, tabs and line ends.
* What the grammar takes the line reader takes if and only if every expression is plainly spaced
  (`ChartScript.Grammar.isSpaced`). Otherwise a statement is dropped, as the one in `a = 1 /* c` is.

Both are put together from what is true of a single line. There the link is
`ChartScript.Grammar.Says`: the statements that the grammar gives say a line, and the line reader
finds that line (`ChartScript.Grammar.readLine_of_says`, `ChartScript.Grammar.says_of_found`).
-/

namespace ChartScript.Grammar

open ChartScript.Text
open ChartScript.Syntax

/-! ### Expressions -/

/-- Every number of a row has a value if the integers do not depend on the filler. -/
theorem valued_of_integersOf {words : List Word} (hp : AllPlain words)
    (h : integersOf (lexemes 0 words) = integersOf (lexemes 1 words)) : Valued words := by
  induction words with
  | nil => simp [Valued]
  | cons word words ih =>
    have hp' : AllPlain words := fun w hw => hp w (List.mem_cons_of_mem _ hw)
    have key : (∃ a, ∀ filler, word.saying.lexeme? filler = some a) ∧
        integersOf (lexemes 0 words) = integersOf (lexemes 1 words) := by
      rcases word with ⟨saying, span⟩
      have hplain := hp _ List.mem_cons_self
      cases saying with
      | name text | dotted text | string body | mark m => exact ⟨⟨_, fun _ => rfl⟩, h⟩
      | indicator | newline | stray => cases hplain
      | number whole fraction =>
        rw [lexemes_number, lexemes_number] at h
        simp only [Saying.lexeme?]
        cases fraction with
        | none =>
          simp only [numberLexeme, integersOf_int, List.cons.injEq] at h ⊢
          cases hv : Number.literalInt? whole with
          | none => simp [hv] at h
          | some n => exact ⟨⟨.int n, fun _ => rfl⟩, h.2⟩
        | some fraction =>
          simp only [numberLexeme] at h ⊢
          cases hv : Number.literalFloat? whole fraction with
          | none => simp [hv] at h
          | some x =>
            rw [hv] at h
            exact ⟨⟨.float x, fun _ => rfl⟩, h⟩
    exact List.forall_mem_cons.2 ⟨key.1, ih hp' key.2⟩

theorem Valued.allPlain {words : List Word} (h : Valued words) : AllPlain words := by
  rintro ⟨saying, span⟩ hword
  obtain ⟨a, ha⟩ := h _ hword
  have := ha 0
  cases saying <;> first | rfl | cases this

/-- The words of a text spell an expression, whatever the filler. -/
structure Expresses (text : List Char) (place : Position) (n : Node) : Prop where
  /-- The text has no line break. -/
  line : text.all isInLine
  /-- Every word can stand in an expression. -/
  plain : AllPlain (wordsFrom place false text)
  /-- The expression does not depend on the filler. -/
  spells : ∀ filler, Spells .sum (lexemes filler (wordsFrom place false text)) [n]

section Expresses

variable {text : List Char} {place : Position} {n : Node}

theorem Expresses.valued (h : Expresses text place n) : Valued (wordsFrom place false text) :=
  valued_of_integersOf h.plain ((h.spells 0).integers_eq.symm.trans (h.spells 1).integers_eq)

/-- A plainly spaced text that expresses something to the grammar does so to the line reader. -/
theorem Expresses.readExpression_eq (h : Expresses text place n) (hg : isPlainlySpaced text)
    (hn : ∀ scanned, scan text = .ok scanned → nesting scanned.lexemes ≤ depthLimit) :
    readExpression text = .ok (some n) := by
  have hl := lexed_of_words h.line hg h.valued (h.spells 0).apart 1
  exact readExpression_of_spells hl hn (h.spells 0)

/-- Any other text is not read by the line reader. -/
theorem Expresses.readExpression_ne (h : Expresses text place n) (hg : ¬ isPlainlySpaced text)
    (m : Node) : readExpression text ≠ .ok (some m) := by
  intro hr
  obtain ⟨row, hl, -, hs⟩ := of_readExpression_eq_some hr
  exact hg (isPlainlySpaced_of_lexed h.line h.valued (h.spells 0).apart hl hs.apart)

/-- Such a text leaves nothing to a line if it leaves anything. -/
theorem Expresses.eq_dropped (h : Expresses text place n) (hg : ¬ isPlainlySpaced text)
    {form : Option Node → Line} (hform : form none = .dropped) {l : Line}
    (hr : (readExpression text).map form = .ok l) : l = .dropped := by
  by_contra hne
  obtain ⟨m, he, -⟩ := of_map_readExpression hform hr hne
  exact h.readExpression_ne hg m he

/-- The plain tree of what is spelled is the expression. -/
theorem Expresses.node?_eq (h : Expresses text place n) {tree : Tree}
    (hs : ∀ filler, ∃ n, tree.node? filler = some n ∧
      Spells .sum (lexemes filler (wordsFrom place false text)) [n]) (filler : Nat) :
    tree.node? filler = some n := by
  obtain ⟨m, hm, hs⟩ := hs filler
  -- a row spells one expression only
  cases hs.unique (h.spells filler)
  exact hm

/-- What a text of basic characters expresses to the line reader it does to the grammar. -/
theorem expresses_of_readExpression (hb : text.all isBasic) (hl : text.all isInLine)
    (hr : readExpression text = .ok (some n)) (place : Position) : Expresses text place n := by
  obtain ⟨row, hlexed, -, hs⟩ := of_readExpression_eq_some hr
  obtain ⟨hv, hrow⟩ := words_of_lexed hb hl hlexed hs.apart place
  exact ⟨hl, hv.allPlain, fun filler => by rw [hrow filler]; exact hs⟩

end Expresses

/-! ### From the grammar to the line reader -/

/-- **What a line that the grammar reads is to the line reader.** -/
inductive Found (line : List Char) : List Statement → Prop
  /-- Nothing, or a comment. -/
  | nothing : expressionText? (trim line) = none → readLine line = .ok .ignored → Found line []
  /-- An indicator line. -/
  | indicator {text : String} : expressionText? (trim line) = none →
      readLine line = .ok (.indicator text) → Found line [.indicator text]
  /-- An assignment. -/
  | assignment {target : String} {text : List Char} {expr : Tree} {place : Position} (span : Span) :
      target ≠ "" → expressionText? (trim line) = some text →
      (target = callTarget → readLine line = .ok .dropped) →
      (target ≠ callTarget → readLine line = (readExpression text).map fun
        | some expr => .statement { target, expr }
        | none => .dropped) →
      text.all isInLine → AllPlain (wordsFrom place false text) →
      (∀ filler, ∃ n, expr.node? filler = some n ∧
        Spells .sum (lexemes filler (wordsFrom place false text)) [n]) →
      Found line [.assignment target expr span]
  /-- A call. -/
  | call {callee : String} {text : List Char} {args : List Tree} {place : Position} (span : Span) :
      expressionText? (trim line) = some text →
      (readLine line = (readExpression text).map fun
        | some (.call callee args) => .statement { target := callTarget, expr := .call callee args }
        | _ => .dropped) →
      text.all isInLine → AllPlain (wordsFrom place false text) →
      (∀ filler, ∃ n, (Tree.call callee args span).node? filler = some n ∧
        Spells .sum (lexemes filler (wordsFrom place false text)) [n]) →
      Found line [.call callee args span]

/-- A comment is a comment to both. -/
theorem isCommentLine_cons (c : Char) (rest : List Char) :
    isCommentLine (c :: rest) = startsComment c rest := by
  rcases rest with _ | ⟨d, rest⟩
  · simp [isCommentLine, startsComment, List.isPrefixOf]
  · by_cases hc : c = '/'
    · simp [isCommentLine, startsComment, List.isPrefixOf, hc, BEq.comm]
    · have h : (c == '/') = false ∧ ('/' == c) = false := ⟨by simpa using hc, by simpa using Ne.symm hc⟩
      simp [isCommentLine, startsComment, List.isPrefixOf, h.1, h.2]

/-- What is left of a line starts with no blank. -/
theorem head?_trim_not_blank {line : List Char} : ∀ c ∈ (trim line).head?, isBlank c = false := by
  intro c hc
  obtain ⟨blanks, heq, -⟩ := trimEnd_append (trimStart line)
  have h : (trimStart line).head? = some c := by
    rw [heq, List.head?_append_of_ne_nil]
    · exact hc
    · rintro hn
      rw [trim, hn] at hc
      cases hc
  exact head?_trimStart_not_blank h

theorem trim_subset (line : List Char) : trim line ⊆ line := by
  intro c hc
  rw [trim, trimEnd, List.mem_reverse] at hc
  have hc' := (List.dropWhile_sublist _).subset hc
  exact (List.dropWhile_sublist _).subset (List.mem_reverse.1 hc')

/-- A text that is empty or a comment has no words. -/
theorem wordsFrom_ignored {text : List Char} (hl : text.all isInLine)
    (hb : ∀ c ∈ text.head?, isBlank c = false) (h : text.isEmpty || isCommentLine text)
    {place : Position} : wordsFrom place false text = [] := by
  rcases text with _ | ⟨c, rest⟩
  · rw [wordsFrom]
  · rw [List.isEmpty_cons, Bool.false_or, isCommentLine_cons] at h
    exact wordsFrom_comment_line (isPadding_of_not_isBlank (hb c rfl)) h hl place

/-- A text that is neither empty nor a comment has a word. -/
theorem wordsFrom_ne_nil {c : Char} {rest : List Char} (hl : (c :: rest).all isInLine)
    (hb : isBlank c = false) (hc : startsComment c rest = false) (place : Position) :
    wordsFrom place false (c :: rest) ≠ [] := by
  have hp := isPadding_of_not_isBlank hb
  have hn := ne_newline hl
  rcases hw : word? false c rest with _ | ⟨saying, count, after⟩
  · rw [wordsFrom_stray hp hc hn hw]
    exact List.cons_ne_nil _ _
  · rw [wordsFrom_word hp hc hn hw]
    exact List.cons_ne_nil _ _

/-- Inside a line no word is an indicator line. -/
theorem wordsFrom_ne_indicator {c : Char} {rest : List Char} (hl : (c :: rest).all isInLine)
    (hb : isBlank c = false) {place : Position} {text : List Char} {span : Span}
    {words : List Word} : wordsFrom place false (c :: rest) ≠ ⟨.indicator text, span⟩ :: words := by
  intro h
  obtain ⟨count, after, place', hw, -⟩ := of_wordsFrom_eq_cons hl hb h (by simp)
  rcases word?_cases hw with ⟨-, -, hs⟩ | ⟨-, -, fraction, hs, -⟩ | ⟨-, body, -, -, hs⟩ |
    ⟨m, -, -, hs⟩
  · split at hs <;> cases hs
  all_goals cases hs

/-- At the start of a statement there may be an indicator line, and otherwise the word that there is
anywhere. -/
theorem word?_atStart {atStart : Bool} {c : Char} {rest after : List Char} {saying : Saying}
    {count : Nat} (hw : word? atStart c rest = some (saying, count, after)) :
    (∃ line, saying = .indicator line) ∨ word? false c rest = some (saying, count, after) := by
  cases atStart with
  | false => exact .inr hw
  | true =>
    rw [word?_true] at hw
    split at hw
    · cases hw
      exact .inl ⟨_, rfl⟩
    · exact .inr hw

/-- A name in a source is not empty. -/
theorem name_ne_nil {text : List Char} {place : Position} {atStart : Bool} :
    ∀ word ∈ wordsFrom place atStart text, word.saying ≠ .name [] := by
  fun_induction wordsFrom place atStart text with
  | case1 => simp
  | case2 place atStart c rest hp ih | case3 place atStart c rest hp hc hlen ih => exact ih
  | case4 place atStart rest hp hc ih =>
    intro word hword
    rcases List.mem_cons.1 hword with rfl | hword
    · simp
    · exact ih word hword
  | case5 => simp
  | case6 place atStart c rest hp hc hn saying count after hw hlen ih =>
    intro word hword
    rcases List.mem_cons.1 hword with rfl | hword
    · rintro rfl
      rcases word?_atStart hw with ⟨line, hs⟩ | hw
      · cases hs
      · rcases word?_cases hw with ⟨-, -, hs⟩ | ⟨-, -, fraction, hs, -⟩ | ⟨-, body, -, -, hs⟩ |
          ⟨m, -, -, hs⟩
        · split at hs <;> cases hs
        all_goals cases hs
    · exact ih word hword

section Trimmed

variable {line : List Char} {c : Char} {rest : List Char} {place : Position} {s s' : Span}
  {words : List Word} (ht : trim line = c :: rest) (hl : (c :: rest).all isInLine)
  (hb : isBlank c = false) (hi : ¬ isIndicatorLine (c :: rest))
  (hign : ((c :: rest).isEmpty || isCommentLine (c :: rest)) = false)

include ht hl hb hi hign

/-- An assignment is found by its name and its equals sign, and its value is read on its own. -/
theorem found_assignment {text : List Char} {expr : Tree} (span : Span)
    (hwords : wordsFrom place false (c :: rest) = ⟨.name text, s⟩ :: ⟨.mark .assign, s'⟩ :: words)
    (hp : AllPlain words)
    (hs : ∀ filler, ∃ n, expr.node? filler = some n ∧ Spells .sum (lexemes filler words) [n]) :
    Found line [.assignment (String.ofList text) expr span] := by
  have hne : words ≠ [] := by
    rintro rfl
    obtain ⟨n, -, hn⟩ := hs 0
    exact hn.ends.1 rfl
  obtain ⟨value, place', ha, rfl⟩ := assignmentParts?_of_words hl hb hwords hp.noStray hne
  refine @Found.assignment line _ value _ place' span ?_ ?_ (fun htarget => ?_)
    (fun htarget => ?_) ?_ hp hs
  · intro hempty
    rw [String.ofList_eq_empty_iff] at hempty
    subst hempty
    exact name_ne_nil _ (hwords ▸ List.mem_cons_self) rfl
  · rw [ht]
    exact expressionText?_assignment hign hi ha
  · rw [readLine, ht]
    exact readTrimmedLine_reserved hign hi ha htarget
  · rw [readLine, ht]
    exact readTrimmedLine_assignment hign hi ha htarget
  · exact all_of_subset (subset_of_assignmentParts? ha) hl

/-- A call is found by its name and its parenthesis, and is read as a whole. -/
theorem found_call {saying : Saying} {name : String} {args : List Tree} (span : Span)
    (hwords : wordsFrom place false (c :: rest) = ⟨saying, s⟩ :: ⟨.mark .leftParen, s'⟩ :: words)
    (hn : saying.name? = some name) (hp : AllPlain words)
    (hs : ∀ filler, ∃ n, (Tree.call name args span).node? filler = some n ∧
      Spells .primary (lexemes filler (⟨saying, s⟩ :: ⟨.mark .leftParen, s'⟩ :: words)) [n]) :
    Found line [.call name args span] := by
  obtain ⟨hcall, ha⟩ := looksLikeCall_of_words hl hb hwords hn hp.noStray
  refine @Found.call line _ (c :: rest) _ place span ?_ ?_ hl ?_ ?_
  · rw [ht]
    exact expressionText?_call hign hi ha hcall
  · rw [readLine, ht]
    exact readTrimmedLine_call hign hi ha hcall
  · rw [hwords]
    exact List.forall_mem_cons.2 ⟨isPlain_of_name? hn, List.forall_mem_cons.2 ⟨rfl, hp⟩⟩
  · rw [hwords]
    exact fun filler => (hs filler).imp fun n h => ⟨h.1, h.2.sum_of_primary⟩

end Trimmed

/-- **What a line gives the grammar, the line reader finds.** -/
theorem found_of_gives {line : List Char} {place : Position} {group : List Statement}
    (hl : line.all isInLine) (hg : Gives (wordsFrom place true line) group) : Found line group := by
  rcases words_trim hl (.inl hg.fits.noStray) with ⟨hi, text, span, hw, ht⟩ | ⟨hi, place', hw⟩
  · rw [hw] at hg
    cases hg
    refine .indicator ?_ ?_
    · rw [expressionText?, if_pos (by simp [hi])]
    · rw [ht]
      exact readTrimmedLine_indicator hi
  · rw [hw] at hg
    have hb : ∀ c ∈ (trim line).head?, isBlank c = false := head?_trim_not_blank
    have hl' : (trim line).all isInLine := all_of_subset (trim_subset line) hl
    by_cases hign : (trim line).isEmpty || isCommentLine (trim line)
    · rw [wordsFrom_ignored hl' hb hign] at hg
      cases hg
      refine .nothing ?_ (readTrimmedLine_ignored hign)
      rw [expressionText?, if_pos]
      rw [hign, Bool.true_or]
    · rw [Bool.not_eq_true] at hign
      generalize ht : trim line = text at *
      rcases text with _ | ⟨c, rest⟩
      · cases hign
      have hc : startsComment c rest = false := by
        rwa [List.isEmpty_cons, Bool.false_or, isCommentLine_cons] at hign
      generalize hwords : wordsFrom place' false (c :: rest) = words at hg
      cases hg with
      -- there is a word, and it is no indicator line
      | nothing => exact absurd hwords (wordsFrom_ne_nil hl' (hb c rfl) hc place')
      | indicator => exact absurd hwords (wordsFrom_ne_indicator hl' (hb c rfl))
      | assignment _ _ _ span hp hs =>
        exact found_assignment ht hl' (hb c rfl) hi hign span hwords hp hs
      | call _ _ span hn hp hs =>
        exact found_call ht hl' (hb c rfl) hi hign span hwords hn hp hs

/-! ### What the line reader makes of it -/

/-- Whether the expression on a line, if there is one, is plainly spaced. -/
def isSpaced (line : List Char) : Bool := (expressionText? (trim line)).all isPlainlySpaced

theorem isSpaced_eq {line text : List Char} (h : expressionText? (trim line) = some text) :
    isSpaced line = isPlainlySpaced text := by
  rw [isSpaced, h, Option.all_some]

theorem isSpaced_of_none {line : List Char} (h : expressionText? (trim line) = none) :
    isSpaced line := by
  rw [isSpaced, h, Option.all_none]

/-- The plain tree that is told for every filler is the one that is spelled. -/
theorem expresses_of_forall {tree : Tree} {text : List Char} {place : Position} {n : Node}
    (hn : ∀ filler, tree.node? filler = some n) (hl : text.all isInLine)
    (hp : AllPlain (wordsFrom place false text))
    (hs : ∀ filler, ∃ n, tree.node? filler = some n ∧
      Spells .sum (lexemes filler (wordsFrom place false text)) [n]) : Expresses text place n := by
  refine ⟨hl, hp, fun filler => ?_⟩
  obtain ⟨m, hm, hs⟩ := hs filler
  cases (hn filler).symm.trans hm
  exact hs

/-- **A plainly spaced line says the same to both.** -/
theorem readLine_of_says {line : List Char} {group : List Statement} {l : Line}
    (hf : Found line group) (hs : Says group l) (hd : isShallow line) (hg : isSpaced line) :
    readLine line = .ok l := by
  cases hf with
  | nothing _ h | indicator _ h =>
    cases hs
    exact h
  | assignment span _ htext _ hread hl hp hspells =>
    cases hs with
    | assignment _ hne ht hn =>
      have hexp := expresses_of_forall hn hl hp hspells
      rw [isSpaced_eq htext] at hg
      rw [hread ht, hexp.readExpression_eq hg fun _ => nesting_of_isShallow htext hd]
      rfl
  | call span htext hread hl hp hspells =>
    cases hs with
    | call _ hn =>
      have hexp := expresses_of_forall hn hl hp hspells
      rw [isSpaced_eq htext] at hg
      rw [hread, hexp.readExpression_eq hg fun _ => nesting_of_isShallow htext hd]
      obtain ⟨args, -, rfl⟩ := Option.map_eq_some_iff.1 (hn 0)
      rfl

/-- **Any other line holds a statement, and the line reader drops it** if it reads on at all. -/
theorem readLine_of_not_spaced {line : List Char} {group : List Statement} {l : Line}
    (hf : Found line group) (hs : Says group l) (hg : ¬ isSpaced line) :
    (∃ a, l = .statement a) ∧ ∀ l', readLine line = .ok l' → l' = .dropped := by
  cases hf with
  | nothing htext | indicator htext => exact absurd (isSpaced_of_none htext) hg
  | assignment span _ htext _ hread hl hp hspells =>
    cases hs with
    | assignment _ hne ht hn =>
      rw [isSpaced_eq htext] at hg
      refine ⟨⟨_, rfl⟩, fun l' h => ?_⟩
      rw [hread ht] at h
      exact (expresses_of_forall hn hl hp hspells).eq_dropped hg rfl h
  | call span htext hread hl hp hspells =>
    cases hs with
    | call _ hn =>
      rw [isSpaced_eq htext] at hg
      refine ⟨⟨_, rfl⟩, fun l' h => ?_⟩
      rw [hread] at h
      exact (expresses_of_forall hn hl hp hspells).eq_dropped hg rfl h

/-! ### What the grammar takes -/

/-- Lines and what they say, where the grammar takes them. -/
def Told (line : List Char) (l : Line) : Prop := ∃ group, Found line group ∧ Says group l

/-- **Statements are only ever lost**, and none is lost if and only if all lines are plainly spaced. -/
theorem isSpaced_of_length {source : List (List Char)} {told found : List Line}
    (h : List.Forall₂ Told source told) (hd : ∀ line ∈ source, isShallow line)
    (hr : source.mapM readLine = .ok found) :
    (found.filterMap Line.statement?).length ≤ (told.filterMap Line.statement?).length ∧
      ((found.filterMap Line.statement?).length = (told.filterMap Line.statement?).length →
        ∀ line ∈ source, isSpaced line) := by
  rw [mapM_eq_ok_iff] at hr
  induction h generalizing found with
  | nil =>
    cases hr
    exact ⟨Nat.le_refl _, by simp⟩
  | @cons line l source told h _ ih =>
    obtain ⟨group, hf, hs⟩ := h
    rcases hr with _ | @⟨_, l', _, found, hl, hfound⟩
    obtain ⟨hle, heq⟩ := ih (fun line hline => hd line (List.mem_cons_of_mem _ hline)) hfound
    by_cases hg : isSpaced line
    · have hread := readLine_of_says hf hs (hd line List.mem_cons_self) hg
      cases hl.symm.trans hread
      simp only [List.filterMap_cons]
      split
      · exact ⟨hle, fun h => List.forall_mem_cons.2 ⟨hg, heq h⟩⟩
      · simp only [List.length_cons]
        exact ⟨by omega, fun h => List.forall_mem_cons.2 ⟨hg, heq (by omega)⟩⟩
    · obtain ⟨⟨a, rfl⟩, hdrop⟩ := readLine_of_not_spaced hf hs hg
      obtain rfl := hdrop l' hl
      simp only [List.filterMap_cons, Line.statement?, List.length_cons]
      exact ⟨by omega, fun h => by omega⟩

theorem mapM_readLine_of_told {source : List (List Char)} {told : List Line}
    (h : List.Forall₂ Told source told) (hd : ∀ line ∈ source, isShallow line)
    (hg : ∀ line ∈ source, isSpaced line) : source.mapM readLine = .ok told := by
  refine mapM_eq_ok_iff.2 (forall₂_imp_of_mem ?_ h)
  rintro line hline l ⟨group, hf, hs⟩
  exact readLine_of_says hf hs (hd line hline) (hg line hline)

/-- A source that the grammar takes is told line by line. -/
theorem told_of_toDatum {source : List (List Char)} {groups : List (List Statement)}
    (hl : ∀ line ∈ source, line.all isInLine)
    (hg : List.Forall₂ (fun line group => ∃ place, Gives (wordsFrom place true line) group) source
      groups) (hd : ∀ statement ∈ groups.flatten, ∃ d, statement.toDatum? = .ok d) :
    ∃ told, List.Forall₂ Told source told ∧ List.Forall₂ Says groups told := by
  induction hg with
  | nil => exact ⟨[], .nil, .nil⟩
  | @cons line group source groups h _ ih =>
    obtain ⟨place, hgives⟩ := h
    rw [List.flatten_cons] at hd
    obtain ⟨l, hs⟩ := says_of_toDatum? hgives
      (fun s hs => hd s (List.mem_append_left _ hs)) name_ne_nil
    obtain ⟨told, htold, hsays⟩ := ih (fun line hline => hl line (List.mem_cons_of_mem _ hline))
      fun s hs => hd s (List.mem_append_right _ hs)
    exact ⟨l :: told, .cons ⟨group, found_of_gives (hl line List.mem_cons_self) hgives, hs⟩ htold,
      .cons hs hsays⟩

theorem all_isInLine_of_mem_lines {source : List Char} : ∀ line ∈ lines source,
    line.all isInLine := by
  induction source using lines_induction with
  | last line hl =>
    rw [lines_eq_singleton hl]
    simpa using hl
  | more line text hl ih =>
    rw [lines_line_append hl]
    exact List.forall_mem_cons.2 ⟨hl, ih⟩

/-- **Whatever the grammar takes, the line reader takes as the same program if and only if every
expression is plainly spaced**, within the bound on nesting. -/
theorem read_iff_of_readSpanned {source : String} {d : Datum} (h : readSpanned source = .ok d)
    (hd : ∀ line ∈ lines source.toList, isShallow line) :
    ∃ p, programOf d = .ok p ∧
      (Program.read source = .ok p ↔ ∀ line ∈ lines source.toList, isSpaced line) := by
  obtain ⟨script, hscript, hdatum⟩ := bind_eq_ok h
  rw [Script.read] at hscript
  split at hscript
  · rename_i statements hrow
    cases hscript
    obtain ⟨groups, hgroups, rfl⟩ := gives_of_lines source.toList _ _ hrow
    obtain ⟨data, hdata, -⟩ := bind_eq_ok hdatum
    obtain ⟨told, htold, hsays⟩ :=
      told_of_toDatum all_isInLine_of_mem_lines hgroups fun statement hs =>
        ((of_mapM_eq_ok hdata).1 statement hs).imp fun _ h => h.2
    obtain ⟨d', hd', hp⟩ := programOf_of_says hsays (wholeSpan (words source.toList))
    cases hdatum.symm.trans hd'
    refine ⟨_, hp, ⟨fun hread => ?_, fun hg => ?_⟩⟩
    · rw [Program.read] at hread
      obtain ⟨found, hr, hsame⟩ := map_eq_ok hread
      -- the programs are the same only if no statement is lost
      have heq := congrArg Program.assignments hsame
      exact (isSpaced_of_length htold hd hr).2 (congrArg List.length heq)
    · rw [Program.read, mapM_readLine_of_told htold hd hg]
      rfl
  · cases hscript

/-- A value that passes a check is there. -/
theorem exists_of_check {ε α : Type} {x : Except ε α} (check : α → Bool)
    (h : (match x with | .ok a => check a | .error _ => false) = true) :
    ∃ a, x = .ok a ∧ check a := by
  cases x with
  | ok a => exact ⟨a, rfl, h⟩
  | error e => cases h

/-- A comment that starts with two slashes is passed over by both. -/
theorem read_behind_slashes : ∃ d p, readSpanned "a = 1 // c" = .ok d ∧ programOf d = .ok p ∧
    Program.read "a = 1 // c" = .ok p := by
  obtain ⟨d, hd, -⟩ : ∃ d, readSpanned "a = 1 // c" = .ok d ∧ true :=
    exists_of_check (fun _ => true) (by decide +kernel)
  obtain ⟨p, hp, hiff⟩ := read_iff_of_readSpanned hd (by decide +kernel)
  exact ⟨d, p, hd, hp, hiff.2 (by decide +kernel)⟩

/-- **A comment that starts with a slash and a star** is passed over by the grammar only, so that the
line reader drops the statement before it. -/
theorem dropped_behind_comment :
    readByGrammar "a = 1 /* c" =
        .ok { indicators := [], assignments := [{ target := "a", expr := .number (.int 1) }] } ∧
      Program.read "a = 1 /* c" = .ok { indicators := [], assignments := [] } := by
  constructor
  · cbv
  · with_unfolding_all rfl

/-! ### From the line reader to the grammar -/

/-- What the line reader reads is what the statements of the line say. -/
theorem says_of_found {line : List Char} {group : List Statement} {l : Line}
    (hf : Found line group) (hb : line.all isBasic) (h : readLine line = .ok l)
    (hne : l ≠ .dropped) : Says group l := by
  have hbasic : ∀ text, expressionText? (trim line) = some text → text.all isBasic :=
    fun text ht => all_of_subset (subset_of_expressionText? ht) (all_of_subset (trim_subset line) hb)
  cases hf with
  | nothing _ hread =>
    cases h.symm.trans hread
    exact .nothing
  | indicator _ hread =>
    cases h.symm.trans hread
    exact .indicator _
  | @assignment target text expr place span hempty htext hreserved hread hl hp hspells =>
    by_cases ht : target = callTarget
    · cases h.symm.trans (hreserved ht)
      exact absurd rfl hne
    · rw [hread ht] at h
      obtain ⟨n, he, rfl⟩ := of_map_readExpression rfl h hne
      have hexp := expresses_of_readExpression (hbasic text htext) hl he place
      exact .assignment span hempty ht (hexp.node?_eq hspells)
  | @call callee text args place span htext hread hl hp hspells =>
    rw [hread] at h
    obtain ⟨n, he, rfl⟩ := of_map_readExpression rfl h hne
    have hexp := expresses_of_readExpression (hbasic text htext) hl he place
    have hn := hexp.node?_eq hspells
    -- the grammar has read a call, so the expression is one
    obtain ⟨nodes, -, rfl⟩ := Option.map_eq_some_iff.1 (hn 0)
    exact .call span hn

/-- A text that looks like a call and is read as one fits. -/
theorem fits_of_call {text : List Char} {callee : String} {args : List Node} {place : Position}
    (hc : looksLikeCall text) (h : Expresses text place (.call callee args)) :
    Fits (wordsFrom place false text) := by
  obtain ⟨-, hp, hs⟩ := h
  rcases text with _ | ⟨c, rest⟩
  · cases hc
  obtain ⟨span, place', hw⟩ := wordsFrom_name (isNameStart_of_looksLikeCall hc) rest place
  have hname := name?_ite (nameRest rest).1 (c :: (nameRest rest).2.1)
  have hs := hs 0
  rw [hw] at hp hs ⊢
  rw [lexemes_of_name? hname] at hs
  rcases hs.call_cases with hhead | ⟨u, hrow, hprimary⟩
  · cases hhead
  · obtain ⟨s', more, hmore, -⟩ := lexemes_eq_mark_cons (List.cons.inj hrow).2
    rw [← lexemes_of_name? hname 0 span] at hprimary
    rw [hmore] at hp hprimary ⊢
    exact .call span s' hname
      (fun word hword => hp word (List.mem_cons_of_mem _ (List.mem_cons_of_mem _ hword))) hprimary

/-- **A line that the line reader takes fits the grammar.** -/
theorem fits_of_readLine {line : List Char} {l : Line} (hp : PaddedOnly line)
    (hb : line.all isBasic) (h : readLine line = .ok l) (hne : l ≠ .dropped) (place : Position) :
    Fits (wordsFrom place true line) := by
  rcases words_trim hp.all (hp.passed (wordsFrom place true line)) with
    ⟨-, text, span, hw, -⟩ | ⟨hi, place', hw⟩
  · rw [hw]
    exact .indicator text span
  · rw [hw]
    rw [readLine] at h
    have hp' : PaddedOnly (trim line) := hp.subset (trim_subset line)
    have hb' : (trim line).all isBasic := all_of_subset (trim_subset line) hb
    have hblank : ∀ c ∈ (trim line).head?, isBlank c = false := head?_trim_not_blank
    generalize trim line = text at *
    by_cases hign : text.isEmpty || isCommentLine text
    · rw [wordsFrom_ignored hp'.all hblank hign]
      exact .nothing
    rw [Bool.not_eq_true] at hign
    rcases readTrimmedLine_statement hign hi h hne with ⟨target, value, n, ha, -, he, -⟩ |
      ⟨callee, args, -, hc, he, -⟩
    · obtain ⟨s, s', place'', hwords⟩ := words_of_assignmentParts? hp' ha place'
      have hsub := subset_of_assignmentParts? ha
      have hexp := expresses_of_readExpression (all_of_subset hsub hb') (hp'.subset hsub).all he
        place''
      rw [hwords]
      exact .assignment target s s' hexp.plain (hexp.spells 0)
    · exact fits_of_call hc (expresses_of_readExpression hb' hp'.all he place')

/-! ### What the line reader takes -/

/-- Whether a character is a printable one of the basic Latin block, a tab or a line end. -/
def isPrintable (c : Char) : Bool :=
  (32 ≤ c.toNat && c.toNat ≤ 126) || c == '\t' || c == '\r' || c == '\n'

theorem isBasic_of_isPrintable {c : Char} (h : isPrintable c) : isBasic c := by
  simp only [isPrintable, Bool.or_eq_true, Bool.and_eq_true, decide_eq_true_eq, beq_iff_eq] at h
  simp only [isBasic, decide_eq_true_eq]
  rcases h with ((h | rfl) | rfl) | rfl
  · omega
  all_goals decide

/-- The blanks among the printable characters of a line are passed over. -/
theorem isPadding_of_isPrintable {c : Char} (h : isPrintable c) (hl : isInLine c)
    (hb : isBlank c) : isPadding c := by
  simp only [isPrintable, Bool.or_eq_true, Bool.and_eq_true, decide_eq_true_eq, beq_iff_eq] at h
  rcases h with ((h | rfl) | rfl) | rfl
  · have hcode : ¬ 32 < c.toNat := fun hc => not_isBlank ⟨hc, by omega⟩ hb
    obtain rfl : c = ' ' := Char.toNat_inj.1 (show c.toNat = 32 by omega)
    rfl
  · rfl
  · rfl
  · cases hl

theorem mem_of_mem_lines {source : List Char} : ∀ line ∈ lines source, line ⊆ source := by
  induction source using lines_induction with
  | last line hl =>
    rw [lines_eq_singleton hl]
    simp
  | more line text hl ih =>
    rw [lines_line_append hl]
    refine List.forall_mem_cons.2 ⟨List.subset_append_left _ _, fun l hmem c hc => ?_⟩
    exact List.mem_append_right _ (List.mem_cons_of_mem _ (ih l hmem hc))

/-- A line of which the line reader makes something, with nothing in it that only one of the two
knows. -/
structure Taken (line : List Char) : Prop where
  /-- The blanks are passed over. -/
  padded : PaddedOnly line
  /-- All characters are basic ones. -/
  basic : line.all isBasic
  /-- The line is not dropped. -/
  kept : readLine line ≠ .ok .dropped

theorem taken_of_isPrintable {source line : List Char} (hs : ∀ c ∈ source, isPrintable c)
    (hline : line ∈ lines source) (hd : readLine line ≠ .ok .dropped) : Taken line := by
  have hl := all_isInLine_of_mem_lines line hline
  have hprint : ∀ c ∈ line, isPrintable c := fun c hc => hs c (mem_of_mem_lines line hline hc)
  refine ⟨fun c hc => ⟨List.all_eq_true.1 hl c hc, fun hb => ?_⟩,
    List.all_eq_true.2 fun c hc => isBasic_of_isPrintable (hprint c hc), hd⟩
  exact isPadding_of_isPrintable (hprint c hc) (List.all_eq_true.1 hl c hc) hb

/-- The lines that are read are what the statements say. -/
theorem says_of_mapM {source : List (List Char)} {groups : List (List Statement)}
    {found : List Line} (ht : ∀ line ∈ source, Taken line)
    (hg : List.Forall₂ (fun line group => ∃ place, Gives (wordsFrom place true line) group) source
      groups) (hr : source.mapM readLine = .ok found) : List.Forall₂ Says groups found := by
  rw [mapM_eq_ok_iff] at hr
  induction hg generalizing found with
  | nil =>
    cases hr
    exact .nil
  | @cons line group source groups h _ ih =>
    obtain ⟨place, hgives⟩ := h
    have htaken := ht line List.mem_cons_self
    rcases hr with _ | ⟨hl, hfound⟩
    refine .cons (says_of_found (found_of_gives htaken.padded.all hgives) htaken.basic hl ?_)
      (ih (fun line hline => ht line (List.mem_cons_of_mem _ hline)) hfound)
    rintro rfl
    exact htaken.kept hl

/-- **Whatever the line reader takes in full, the grammar takes identically**, if all characters are
printable ones, tabs or line ends. -/
theorem readByGrammar_of_read {source : String} {p : Program}
    (hs : ∀ c ∈ source.toList, isPrintable c) (h : Program.read source = .ok p)
    (hd : ∀ line ∈ lines source.toList, readLine line ≠ .ok .dropped) :
    readByGrammar source = .ok p := by
  have ht : ∀ line ∈ lines source.toList, Taken line :=
    fun line hline => taken_of_isPrintable hs hline (hd line hline)
  rw [Program.read] at h
  obtain ⟨found, hr, rfl⟩ := map_eq_ok h
  have hfits : ∀ line ∈ lines source.toList, ∀ place, Fits (wordsFrom place true line) := by
    intro line hline place
    obtain ⟨l, -, hl⟩ := (of_mapM_eq_ok hr).1 line hline
    refine fits_of_readLine (ht line hline).padded (ht line hline).basic hl ?_ place
    rintro rfl
    exact (ht line hline).kept hl
  obtain ⟨statements, hrow⟩ := statementRow_of_lines source.toList hfits ⟨1, 1⟩
  obtain ⟨groups, hgroups, rfl⟩ := gives_of_lines source.toList _ _ hrow
  obtain ⟨d, hdatum, hp⟩ :=
    programOf_of_says (says_of_mapM ht hgroups hr) (wholeSpan (words source.toList))
  have hread : readSpanned source = .ok d := by
    rw [readSpanned, Script.read, words, hrow]
    exact hdatum
  rw [readByGrammar, hread]
  simp only [hp]

/-- A source with statements of all forms. -/
def formsSource : String :=
  "indicator('x')\r\nlen = 14 // c\n\tplot(ta.sma(close, len) [1], \x7bw: -2\x7d)"

theorem readByGrammar_forms : ∃ p : Program, Program.read formsSource = .ok p ∧
    readByGrammar formsSource = .ok p ∧ p.indicators.length = 1 ∧ p.assignments.length = 2 := by
  obtain ⟨p, hp, hcheck⟩ : ∃ p : Program, Program.read formsSource = .ok p ∧
      (p.indicators.length == 1 && p.assignments.length == 2) :=
    exists_of_check (fun p : Program => p.indicators.length == 1 && p.assignments.length == 2)
      (by decide +kernel)
  refine ⟨p, hp, readByGrammar_of_read (List.all_eq_true.1 (by decide +kernel)) hp ?_, by simpa using hcheck⟩
  have hd : ∀ line ∈ lines formsSource.toList, !(readLine line matches .ok .dropped) := by
    decide +kernel
  intro line hline h
  have := hd line hline
  rw [h] at this
  cases this

end ChartScript.Grammar
