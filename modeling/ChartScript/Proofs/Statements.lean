import ChartScript.Proofs.Simulation

/-!
# Statements, line by line

A line break fits nowhere inside a statement, so that the grammar reads a source line by line after
all. `ChartScript.Grammar.Gives` says which statements the words of one line give: none, an indicator
line, an assignment or a call. What an assignment and a call are made of is said in terms of the
spelling of lexemes, for every filler.

`ChartScript.Grammar.gives_of_statementRow` takes a source apart: where the rows of statements are
read, each line gives its statements. `ChartScript.Grammar.statementRow_of_fits` is the other
direction; a line *fits* if its words are those of one of the four cases, whatever tree there may be.
-/

namespace ChartScript.Grammar

open ChartScript.Syntax

/-! ### The first line of a row of words -/

/-- Whether a word is no line break. -/
def Word.isInside (word : Word) : Bool := !(word.saying matches .newline)

/-- The words up to the first line break. -/
def firstLine (words : List Word) : List Word := words.takeWhile Word.isInside

/-- The words from the first line break on. -/
def furtherLines (words : List Word) : List Word := words.dropWhile Word.isInside

theorem isInside_of_isPlain {word : Word} (h : word.saying.isPlain) : word.isInside := by
  rcases word with ⟨saying, span⟩
  cases saying <;> first | rfl | cases h

@[simp] theorem firstLine_nil : firstLine [] = [] := rfl

@[simp] theorem furtherLines_nil : furtherLines [] = [] := rfl

@[simp] theorem firstLine_newline (span : Span) (words : List Word) :
    firstLine (⟨.newline, span⟩ :: words) = [] := rfl

@[simp] theorem furtherLines_newline (span : Span) (words : List Word) :
    furtherLines (⟨.newline, span⟩ :: words) = ⟨.newline, span⟩ :: words := rfl

theorem firstLine_cons {word : Word} (h : word.isInside) (words : List Word) :
    firstLine (word :: words) = word :: firstLine words :=
  List.takeWhile_cons_of_pos h

theorem furtherLines_cons {word : Word} (h : word.isInside) (words : List Word) :
    furtherLines (word :: words) = furtherLines words :=
  List.dropWhile_cons_of_pos h

/-- Lexemes do not go beyond a line break. -/
theorem lexemes_firstLine (filler : Nat) (words : List Word) :
    lexemes filler (firstLine words) = lexemes filler words := by
  induction words with
  | nil => rfl
  | cons word words ih =>
    rcases word with ⟨saying, span⟩
    cases saying with
    | newline => rfl
    | _ =>
      rw [firstLine_cons (by rfl), lexemes, lexemes, ih]

/-- Whether a reader has come to the end of a line. -/
def AtEnd (words : List Word) : Prop := firstLine words = []

theorem AtEnd.cases {words : List Word} (h : AtEnd words) :
    words = [] ∨ ∃ span more, words = ⟨.newline, span⟩ :: more := by
  rcases words with _ | ⟨⟨saying, span⟩, more⟩
  · exact .inl rfl
  · cases saying with
    | newline => exact .inr ⟨span, more, rfl⟩
    | _ => cases h

theorem AtEnd.furtherLines_eq {words : List Word} (h : AtEnd words) : furtherLines words = words := by
  rcases h.cases with rfl | ⟨span, more, rfl⟩ <;> rfl

/-- Nothing is left of a line at its end. -/
theorem AtEnd.lexemes_eq {words : List Word} (h : AtEnd words) (filler : Nat) :
    lexemes filler words = [] := by
  rw [← lexemes_firstLine, h]
  rfl

/-- A reader that stops at the end of a line has taken the line and nothing else. -/
theorem Took.line {words rest : List Word} (h : Took words rest) (he : AtEnd rest) :
    furtherLines words = rest ∧ ∀ word ∈ firstLine words, word.saying.isPlain := by
  induction h with
  | refl words =>
    rw [he]
    refine ⟨?_, by simp⟩
    rcases he.cases with rfl | ⟨span, more, rfl⟩ <;> rfl
  | @word word words rest hp _ ih =>
    rw [furtherLines_cons (isInside_of_isPlain hp), firstLine_cons (isInside_of_isPlain hp)]
    refine ⟨(ih he).1, fun w hw => ?_⟩
    rcases List.mem_cons.1 hw with rfl | hw
    · exact hp
    · exact (ih he).2 w hw

/-- A reader that leaves no lexeme of a plain line has come to its end. -/
theorem Took.atEnd {words rest : List Word} (h : Took words rest) {filler : Nat}
    (hp : ∀ word ∈ firstLine words, word.saying.isPlain) (hl : lexemes filler rest = []) :
    AtEnd rest := by
  induction h with
  | refl words =>
    rcases words with _ | ⟨word, words⟩
    · rfl
    · by_cases hi : word.isInside
      · rw [firstLine_cons hi] at hp
        obtain ⟨a, ha⟩ := Saying.lexeme?_of_isPlain (hp word List.mem_cons_self) filler
        rw [lexemes, ha] at hl
        cases hl
      · exact List.takeWhile_cons_of_neg hi
  | @word word words rest hpw _ ih =>
    rw [firstLine_cons (isInside_of_isPlain hpw)] at hp
    exact ih (fun w hw => hp w (List.mem_cons_of_mem _ hw)) hl

/-! ### What a line gives -/

/-- All words of a row can stand in an expression. -/
def AllPlain (words : List Word) : Prop := ∀ word ∈ words, word.saying.isPlain

/-- **What the words of a line give.** The trees are said through their plain trees, which the lexemes
of the line must spell for every filler. -/
inductive Gives : List Word → List Statement → Prop
  /-- A line without words gives nothing. -/
  | nothing : Gives [] []
  /-- An indicator line. -/
  | indicator (text : List Char) (span : Span) :
      Gives [⟨.indicator text, span⟩] [.indicator (String.ofList (Text.trim text))]
  /-- An assignment. -/
  | assignment (text : List Char) (s s' span : Span) {words : List Word} {expr : Tree} :
      AllPlain words →
      (∀ filler, ∃ n, expr.node? filler = some n ∧ Spells .sum (lexemes filler words) [n]) →
      Gives (⟨.name text, s⟩ :: ⟨.mark .assign, s'⟩ :: words)
        [.assignment (String.ofList text) expr span]
  /-- A call. -/
  | call (s s' span : Span) {saying : Saying} {name : String} {words : List Word}
      {args : List Tree} : saying.name? = some name → AllPlain words →
      (∀ filler, ∃ n, (Tree.call name args span).node? filler = some n ∧
        Spells .primary (lexemes filler (⟨saying, s⟩ :: ⟨.mark .leftParen, s'⟩ :: words)) [n]) →
      Gives (⟨saying, s⟩ :: ⟨.mark .leftParen, s'⟩ :: words) [.call name args span]

/-- **A line fits** if its words are those of a line that gives something, whatever the trees. -/
inductive Fits : List Word → Prop
  /-- A line without words. -/
  | nothing : Fits []
  /-- An indicator line. -/
  | indicator (text : List Char) (span : Span) : Fits [⟨.indicator text, span⟩]
  /-- An assignment. -/
  | assignment (text : List Char) (s s' : Span) {words : List Word} {n : Node} : AllPlain words →
      Spells .sum (lexemes 0 words) [n] →
      Fits (⟨.name text, s⟩ :: ⟨.mark .assign, s'⟩ :: words)
  /-- A call. -/
  | call (s s' : Span) {saying : Saying} {name : String} {words : List Word} {n : Node} :
      saying.name? = some name → AllPlain words →
      Spells .primary (lexemes 0 (⟨saying, s⟩ :: ⟨.mark .leftParen, s'⟩ :: words)) [n] →
      Fits (⟨saying, s⟩ :: ⟨.mark .leftParen, s'⟩ :: words)

/-- What gives something fits. -/
theorem Gives.fits {words : List Word} {statements : List Statement} (h : Gives words statements) :
    Fits words := by
  cases h with
  | nothing => exact .nothing
  | indicator text span => exact .indicator text span
  | assignment text s s' span hp hs =>
    obtain ⟨n, -, hn⟩ := hs 0
    exact .assignment text s s' hp hn
  | call s s' span hn hp hs =>
    obtain ⟨n, -, hsp⟩ := hs 0
    exact .call s s' hn hp hsp

/-! ### A single statement -/

/-- What a reader that stops at the end of a line has read is spelled by the line. -/
theorem spells_of_matches {words rest : List Word} {piece : Piece} (h : rest.length < words.length)
    (hs : sum words = .ok (piece, ⟨rest, h⟩)) (he : AtEnd rest) (filler : Nat) :
    ∃ n, piece.tree.node? filler = some n ∧
      Spells .sum (lexemes filler (firstLine words)) [n] := by
  have hm := sum_matches filler words
  rw [hs] at hm
  obtain ⟨-, n, hn, heq⟩ := hm
  -- no lexeme is left, so the row has been read as a whole
  rw [he.lexemes_eq] at heq
  refine ⟨n, hn, expression?_eq_some_iff.1 (expression?_eq_some.2 ?_)⟩
  rw [lexemes_firstLine]
  exact heq

/-- The arguments of a call that ends with its line are spelled by the line. -/
theorem spells_of_callArguments {words rest : List Word} {args : List Tree} {closing : Span}
    {h : rest.length < words.length}
    (hs : callArguments words = .ok (args, closing, ⟨rest, h⟩)) (he : AtEnd rest) (name : String)
    (span : Span) (filler : Nat) :
    ∃ n, (Tree.call name args span).node? filler = some n ∧
      Spells .primary (.name name :: .mark .leftParen :: lexemes filler (firstLine words)) [n] := by
  have hm := callArguments_matches filler words
  rw [hs] at hm
  obtain ⟨-, ns, hns, heq⟩ := hm
  rw [he.lexemes_eq] at heq
  refine ⟨.call name ns, by simp [Tree.node?, hns], ?_⟩
  have hp : bare (primary? (.name name :: .mark .leftParen :: lexemes filler words)) =
      some (.call name ns, []) := by
    rw [bare_primary?_callArguments?, heq]
    rfl
  obtain ⟨v, hv, hsp⟩ := primary?_spells hp
  rw [lexemes_firstLine, hv, List.append_nil]
  exact hsp

/-- The shapes of a row that is read as a statement. -/
theorem statement_cases {words rest : List Word} {first : Statement}
    (h : rest.length < words.length) (hs : statement words = .ok (first, ⟨rest, h⟩)) :
    (∃ text span, words = ⟨.indicator text, span⟩ :: rest ∧
        first = .indicator (String.ofList (Text.trim text))) ∨
      (∃ text s s' u value h', words = ⟨.name text, s⟩ :: ⟨.mark .assign, s'⟩ :: u ∧
        sum u = .ok (value, ⟨rest, h'⟩) ∧
        first = .assignment (String.ofList text) value.tree (s.to value.outer)) ∨
      ∃ saying name s s' u args closing h', words = ⟨saying, s⟩ :: ⟨.mark .leftParen, s'⟩ :: u ∧
        saying.name? = some name ∧ callArguments u = .ok (args, closing, ⟨rest, h'⟩) ∧
        first = .call name args (s.to closing) := by
  unfold statement at hs
  split at hs
  · cases hs
  · cases hs
    exact .inl ⟨_, _, rfl, rfl⟩
  · obtain ⟨⟨value, after, h'⟩, hsum, heq⟩ := bind_eq_ok hs
    cases heq
    exact .inr (.inl ⟨_, _, _, _, _, _, rfl, hsum, rfl⟩)
  · rename_i saying span u _ _
    cases saying with
    | name text | dotted text =>
      rcases u with _ | ⟨⟨saying, s'⟩, u⟩
      · cases hs
      · cases saying with
        | mark m =>
          cases m with
          | leftParen =>
            obtain ⟨⟨args, closing, after, h'⟩, hargs, heq⟩ := bind_eq_ok hs
            cases heq
            exact .inr (.inr ⟨_, _, _, _, _, _, _, _, rfl, rfl, hargs, rfl⟩)
          | _ => cases hs
        | _ => cases hs
    | _ => cases hs

/-- What a statement takes up to the end of its line is the line, and the line gives it. -/
theorem gives_of_statement {words rest : List Word} {first : Statement}
    (h : rest.length < words.length) (hs : statement words = .ok (first, ⟨rest, h⟩))
    (he : AtEnd rest) : furtherLines words = rest ∧ Gives (firstLine words) [first] := by
  rcases statement_cases h hs with ⟨text, span, rfl, rfl⟩ |
    ⟨text, s, s', u, value, h', rfl, hsum, rfl⟩ |
    ⟨saying, name, s, s', u, args, closing, h', rfl, hname, hargs, rfl⟩
  · rw [furtherLines_cons (by rfl), firstLine_cons (by rfl), he]
    refine ⟨?_, .indicator text span⟩
    rcases he.cases with rfl | ⟨span, more, rfl⟩ <;> rfl
  · rw [furtherLines_cons (by rfl), furtherLines_cons (by rfl), firstLine_cons (by rfl),
      firstLine_cons (by rfl)]
    have hm := sum_matches 0 u
    rw [hsum] at hm
    have hline := Took.line hm.1 he
    exact ⟨hline.1, .assignment _ _ _ _ hline.2 (spells_of_matches h' hsum he)⟩
  · have hi : Word.isInside ⟨saying, s⟩ := isInside_of_isPlain (isPlain_of_name? hname)
    rw [furtherLines_cons hi, furtherLines_cons (by rfl), firstLine_cons hi,
      firstLine_cons (by rfl)]
    have hm := callArguments_matches 0 u
    rw [hargs] at hm
    have hline := Took.line hm.1 he
    refine ⟨hline.1, .call s s' _ hname hline.2 fun filler => ?_⟩
    rw [lexemes_of_name? hname, lexemes_mark]
    exact spells_of_callArguments hargs he name _ filler

/-! ### The rows of a source -/

@[simp] theorem statementRow_nil : statementRow [] = .ok [] := by
  rw [statementRow]

@[simp] theorem statementRow_newline (span : Span) (words : List Word) :
    statementRow (⟨.newline, span⟩ :: words) = statementRow words := by
  rw [statementRow]

theorem stopAt_ne_ok {α : Type} (words : List Word) (x : α) : stopAt words ≠ .ok x := by
  cases words <;> rintro ⟨⟩

/-- **Where the rows of statements are read, each line gives its statements.** -/
theorem gives_of_statementRow {words : List Word} {statements : List Statement}
    (h : statementRow words = .ok statements) :
    ∃ first more, Gives (firstLine words) first ∧
      statementRow (furtherLines words) = .ok more ∧ statements = first ++ more := by
  rw [statementRow.eq_def] at h
  split at h
  · cases h
    exact ⟨[], [], .nothing, by simp, rfl⟩
  · exact ⟨[], statements, .nothing, by simpa using h, rfl⟩
  · rename_i word rest hne
    obtain ⟨⟨first, rest', hlt⟩, hs, h⟩ := bind_eq_ok h
    dsimp only at h
    -- behind a statement there is the end of the source or a line break, and nothing else
    split at h
    · cases h
      obtain ⟨hf, hg⟩ := gives_of_statement _ hs rfl
      exact ⟨_, [], hg, by simp [hf], rfl⟩
    · obtain ⟨more, hmore, heq⟩ := bind_eq_ok h
      cases heq
      obtain ⟨hf, hg⟩ := gives_of_statement _ hs rfl
      exact ⟨_, more, hg, by simpa [hf] using hmore, rfl⟩
    · exact absurd h (stopAt_ne_ok _ _)

theorem firstLine_eq_cons {words line : List Word} {word : Word}
    (h : firstLine words = word :: line) :
    ∃ rest, words = word :: rest ∧ word.isInside ∧ firstLine rest = line := by
  rcases words with _ | ⟨w, rest⟩
  · cases h
  · by_cases hi : w.isInside
    · rw [firstLine_cons hi] at h
      cases h
      exact ⟨rest, rfl, hi, rfl⟩
    · rw [firstLine, List.takeWhile_cons_of_neg hi] at h
      cases h

/-- A line whose lexemes spell an expression is read as an expression. -/
theorem sum_of_spells {words : List Word} {n : Node} (hp : AllPlain (firstLine words))
    (hs : Spells .sum (lexemes 0 (firstLine words)) [n]) :
    ∃ piece rest h, sum words = .ok (piece, ⟨rest, h⟩) ∧ AtEnd rest ∧ furtherLines words = rest := by
  have hr : bare (sum? (lexemes 0 words)) = some (n, []) := by
    rw [← lexemes_firstLine]
    exact expression?_eq_some.1 (expression?_eq_some_iff.2 hs)
  have hm := sum_matches 0 words
  rw [hr] at hm
  rcases hg : sum words with e | ⟨piece, rest, h⟩
  · rw [hg] at hm
    cases hm
  · rw [hg] at hm
    obtain ⟨ht, m, -, heq⟩ := hm
    have he : AtEnd rest := ht.atEnd hp (Prod.mk.inj (Option.some.inj heq)).2.symm
    exact ⟨piece, rest, h, rfl, he, (ht.line he).1⟩

/-- A line whose lexemes spell a call is read as a call. -/
theorem callArguments_of_spells {words : List Word} {name : String} {n : Node}
    (hp : AllPlain (firstLine words))
    (hs : Spells .primary (.name name :: .mark .leftParen :: lexemes 0 (firstLine words)) [n]) :
    ∃ args closing rest h, callArguments words = .ok (args, closing, ⟨rest, h⟩) ∧ AtEnd rest ∧
      furtherLines words = rest := by
  have hr : bare (primary? (.name name :: .mark .leftParen :: lexemes 0 words)) = some (n, []) := by
    have hreads := hs.reads [] (by simp [grip])
    rwa [lexemes_firstLine, List.append_nil] at hreads
  rw [bare_primary?_callArguments?] at hr
  obtain ⟨⟨ns, after⟩, hc, heq⟩ := Option.map_eq_some_iff.1 hr
  cases heq
  have hm := callArguments_matches 0 words
  rw [hc] at hm
  rcases hg : callArguments words with e | ⟨args, closing, rest, h⟩
  · rw [hg] at hm
    cases hm
  · rw [hg] at hm
    obtain ⟨ht, m, -, heq⟩ := hm
    have he : AtEnd rest := ht.atEnd hp (Prod.mk.inj (Option.some.inj heq)).2.symm
    exact ⟨args, closing, rest, h, rfl, he, (ht.line he).1⟩

theorem statement_assignment {words : List Word} {value : Piece} {rest : Shorter words}
    (h : sum words = .ok (value, rest)) (text : List Char) (s s' : Span) :
    ∃ first h', statement (⟨.name text, s⟩ :: ⟨.mark .assign, s'⟩ :: words) =
      .ok (first, ⟨rest.1, h'⟩) := by
  have hlt := rest.2
  refine ⟨.assignment (String.ofList text) value.tree (s.to value.outer),
    by simp only [List.length_cons]; omega, ?_⟩
  rw [statement, h]
  rfl

theorem statement_call {words : List Word} {args : List Tree} {closing : Span}
    {rest : Shorter words} (h : callArguments words = .ok (args, closing, rest)) {saying : Saying}
    {name : String} (hn : saying.name? = some name) (s s' : Span) :
    ∃ first h', statement (⟨saying, s⟩ :: ⟨.mark .leftParen, s'⟩ :: words) =
      .ok (first, ⟨rest.1, h'⟩) := by
  have hlt := rest.2
  refine ⟨.call name args (s.to closing), by simp only [List.length_cons]; omega, ?_⟩
  cases saying with
  | name | dotted =>
    cases hn
    rw [statement]
    · simp only [Saying.name?, h]
      rfl
    all_goals simp
  | _ => cases hn

/-- A statement that ends with its line is followed by the further lines. -/
theorem statementRow_cons {word : Word} {words rest : List Word} {first : Statement}
    {more : List Statement} {h : rest.length < (word :: words).length} (hi : word.isInside)
    (hs : statement (word :: words) = .ok (first, ⟨rest, h⟩)) (he : AtEnd rest)
    (hm : statementRow rest = .ok more) : statementRow (word :: words) = .ok (first :: more) := by
  rw [statementRow.eq_def]
  split
  · rename_i heq
    cases heq
  · rename_i heq
    cases heq
    cases hi
  · rename_i heq
    cases heq
    rw [hs]
    rcases he.cases with rfl | ⟨span, rest, rfl⟩
    · rw [statementRow_nil] at hm
      cases hm
      rfl
    · rw [statementRow_newline] at hm
      show (statementRow rest >>= fun more => pure (first :: more)) = _
      rw [hm]
      rfl

/-- **A source is read if its first line fits and the further lines are read.** -/
theorem statementRow_of_fits {words : List Word} (h : Fits (firstLine words))
    (hm : ∃ more, statementRow (furtherLines words) = .ok more) :
    ∃ statements, statementRow words = .ok statements := by
  obtain ⟨more, hm⟩ := hm
  -- the first line is given by its case, and the words start as it says
  generalize hl : firstLine words = line at h
  cases h with
  | nothing =>
    rcases AtEnd.cases hl with rfl | ⟨span, rest, rfl⟩
    · exact ⟨[], statementRow_nil⟩
    · exact ⟨more, hm⟩
  | indicator text span =>
    obtain ⟨rest, rfl, hi, he⟩ := firstLine_eq_cons hl
    rw [furtherLines_cons hi, AtEnd.furtherLines_eq he] at hm
    exact ⟨_, statementRow_cons hi rfl he hm⟩
  | @assignment text s s' line n hp hs =>
    obtain ⟨words, rfl, hi, hl⟩ := firstLine_eq_cons hl
    obtain ⟨words, rfl, hi', rfl⟩ := firstLine_eq_cons hl
    obtain ⟨piece, rest, h, hsum, he, hf⟩ := sum_of_spells hp hs
    rw [furtherLines_cons hi, furtherLines_cons hi', hf] at hm
    obtain ⟨first, h', hst⟩ := statement_assignment hsum text s s'
    exact ⟨_, statementRow_cons hi hst he hm⟩
  | @call s s' saying name line n hn hp hs =>
    obtain ⟨words, rfl, hi, hl⟩ := firstLine_eq_cons hl
    obtain ⟨words, rfl, hi', rfl⟩ := firstLine_eq_cons hl
    rw [lexemes_of_name? hn, lexemes_mark] at hs
    obtain ⟨args, closing, rest, h, hargs, he, hf⟩ := callArguments_of_spells hp hs
    rw [furtherLines_cons hi, furtherLines_cons hi', hf] at hm
    obtain ⟨first, h', hst⟩ := statement_call hargs hn s s'
    exact ⟨_, statementRow_cons hi hst he hm⟩

end ChartScript.Grammar
