import ChartScript.Proofs.Completeness
import ChartScript.Proofs.Description

/-!
# The two readers of expressions go the same way

The grammar reads expressions off words, which know where they stand, and the descent of
`ChartScript.Syntax.Expression` reads them off lexemes. Up to the first word that no expression has –
a line break, an indicator line, a stray word – a row of words is a row of lexemes
(`ChartScript.Grammar.lexemes`), and on it the two readers agree: one takes what the other takes, and
the plain tree of the one is the tree of the other.

`ChartScript.Grammar.Matches` is that relation between two outcomes. It is kept by doing one thing
after another (`ChartScript.Grammar.Matches.bind`), and each of the fourteen readers is then a walk
through its definition and the equation of its counterpart, side by side.
-/

namespace ChartScript.Grammar

open ChartScript.Syntax

/-! ### Words as lexemes -/

/-- The lexeme of a number literal; one that has no value counts as the filler. -/
def numberLexeme (filler : Nat) (whole : List Char) : Option (List Char) → Lexeme
  | none => .int ((Number.literalInt? whole).getD filler)
  | some fraction => ((Number.literalFloat? whole fraction).map Lexeme.float).getD (.int filler)

/-- What a word says, as a lexeme; some words never stand in an expression. -/
def Saying.lexeme? (filler : Nat) : Saying → Option Lexeme
  | .name text | .dotted text => some (.name (String.ofList text))
  | .number whole fraction => some (numberLexeme filler whole fraction)
  | .string body => some (.string (String.ofList (unescape body)))
  | .mark m => some (.mark m)
  | .indicator _ | .newline | .stray => none

/-- Whether a word can stand in an expression. -/
def Saying.isPlain : Saying → Bool
  | .name _ | .dotted _ | .number _ _ | .string _ | .mark _ => true
  | .indicator _ | .newline | .stray => false

theorem Saying.lexeme?_of_isPlain {saying : Saying} (h : saying.isPlain) (filler : Nat) :
    ∃ a, saying.lexeme? filler = some a := by
  cases saying <;> first | exact ⟨_, rfl⟩ | cases h

/-- The lexemes of the words up to the first one that has none. -/
def lexemes (filler : Nat) : List Word → List Lexeme
  | [] => []
  | word :: words =>
    match word.saying.lexeme? filler with
    | some a => a :: lexemes filler words
    | none => []

@[simp] theorem lexemes_nil (filler : Nat) : lexemes filler [] = [] := rfl

@[simp] theorem lexemes_mark (filler : Nat) (m : Mark) (span : Span) (words : List Word) :
    lexemes filler (⟨.mark m, span⟩ :: words) = .mark m :: lexemes filler words := rfl

@[simp] theorem lexemes_number (filler : Nat) (whole : List Char) (fraction : Option (List Char))
    (span : Span) (words : List Word) :
    lexemes filler (⟨.number whole fraction, span⟩ :: words) =
      numberLexeme filler whole fraction :: lexemes filler words := rfl

@[simp] theorem lexemes_string (filler : Nat) (body : List Char) (span : Span) (words : List Word) :
    lexemes filler (⟨.string body, span⟩ :: words) =
      .string (String.ofList (unescape body)) :: lexemes filler words := rfl

/-- A number literal is no mark and no name. -/
theorem numberLexeme_cases (filler : Nat) (whole : List Char) (fraction : Option (List Char)) :
    (∃ n : Nat, numberLexeme filler whole fraction = .int n ∧
      numberValue filler whole fraction = .int n) ∨
    ∃ x, numberLexeme filler whole fraction = .float x ∧
      numberValue filler whole fraction = .float x := by
  cases fraction with
  | none =>
    refine .inl ?_
    cases h : Number.literalInt? whole with
    | none => exact ⟨filler, by simp [numberLexeme, h], by simp [numberValue, numberDatum, h, Except.toOption]⟩
    | some n => exact ⟨n, by simp [numberLexeme, h], by simp [numberValue, numberDatum, h, Except.toOption]⟩
  | some fraction =>
    cases h : Number.literalFloat? whole fraction with
    | none =>
      exact .inl ⟨filler, by simp [numberLexeme, h], by simp [numberValue, numberDatum, h, Except.toOption]⟩
    | some x =>
      exact .inr ⟨x, by simp [numberLexeme, h], by simp [numberValue, numberDatum, h, Except.toOption]⟩

theorem lexemes_of_name? {saying : Saying} {name : String} (h : saying.name? = some name)
    (filler : Nat) (span : Span) (words : List Word) :
    lexemes filler (⟨saying, span⟩ :: words) = .name name :: lexemes filler words := by
  cases saying <;> cases h <;> rfl

/-- A mark among the lexemes is one among the words. -/
theorem lexemes_eq_mark_cons {filler : Nat} {words : List Word} {m : Mark} {u : List Lexeme}
    (h : lexemes filler words = .mark m :: u) :
    ∃ span rest, words = ⟨.mark m, span⟩ :: rest ∧ u = lexemes filler rest := by
  rcases words with _ | ⟨⟨saying, span⟩, rest⟩
  · cases h
  · cases saying with
    | mark m' =>
      cases h
      exact ⟨span, rest, rfl, rfl⟩
    | number whole fraction =>
      rw [lexemes_number] at h
      rcases numberLexeme_cases filler whole fraction with ⟨n, hn, -⟩ | ⟨x, hx, -⟩
      · rw [hn] at h
        cases h
      · rw [hx] at h
        cases h
    | _ => cases h

/-- A name among the lexemes is one among the words. -/
theorem lexemes_eq_name_cons {filler : Nat} {words : List Word} {name : String} {u : List Lexeme}
    (h : lexemes filler words = .name name :: u) :
    ∃ saying span rest, words = ⟨saying, span⟩ :: rest ∧ saying.name? = some name ∧
      u = lexemes filler rest := by
  rcases words with _ | ⟨⟨saying, span⟩, rest⟩
  · cases h
  · cases saying with
    | name text | dotted text =>
      cases h
      exact ⟨_, span, rest, rfl, rfl, rfl⟩
    | number whole fraction =>
      rw [lexemes_number] at h
      rcases numberLexeme_cases filler whole fraction with ⟨n, hn, -⟩ | ⟨x, hx, -⟩
      · rw [hn] at h
        cases h
      · rw [hx] at h
        cases h
    | _ => cases h

/-! ### Matching outcomes -/

/-- Words are taken off the front, and only such as can stand in an expression. -/
inductive Took : List Word → List Word → Prop
  /-- Nothing is taken. -/
  | refl (words : List Word) : Took words words
  /-- One word is taken and then perhaps others. -/
  | word {word : Word} {words rest : List Word} :
      word.saying.isPlain → Took words rest → Took (word :: words) rest

theorem Took.trans {u v w : List Word} (h : Took u v) (h' : Took v w) : Took u w := by
  induction h with
  | refl => exact h'
  | word hp _ ih => exact .word hp (ih h')

/-- A word that can stand in an expression is taken. -/
theorem Took.one {word : Word} (h : word.saying.isPlain) (words : List Word) :
    Took (word :: words) words :=
  .word h (.refl words)

/-- A mark is taken. -/
theorem Took.mark (m : Mark) (span : Span) (words : List Word) :
    Took (⟨.mark m, span⟩ :: words) words :=
  .one rfl words

section Matches

variable {τ σ β γ : Type} {filler : Nat} {R : τ → β → Prop} {left : τ → List Word}
  {R' : σ → γ → Prop} {left' : σ → List Word} {words : List Word}

/-- **Two outcomes match**: both readers fail, or both take the same words and their results belong
together. -/
def Matches (filler : Nat) (R : τ → β → Prop) (left : τ → List Word) (words : List Word)
    (g : Except Stop τ) (h : Option (β × List Lexeme)) : Prop :=
  match g with
  | .ok x => Took words (left x) ∧ ∃ b, R x b ∧ h = some (b, lexemes filler (left x))
  | .error _ => h = none

/-- Matching readers one after the other match. -/
theorem Matches.bind {g : Except Stop τ} {h : Option (β × List Lexeme)}
    (hm : Matches filler R left words g h) {k : τ → Except Stop σ}
    {k' : β × List Lexeme → Option (γ × List Lexeme)}
    (hk : ∀ x b, Took words (left x) → R x b →
      Matches filler R' left' words (k x) (k' (b, lexemes filler (left x)))) :
    Matches filler R' left' words (g >>= k) (h.bind k') := by
  cases g with
  | ok x =>
    obtain ⟨ht, b, hb, rfl⟩ := hm
    exact hk x b ht hb
  | error e =>
    obtain rfl : h = none := hm
    rfl

/-- A reader that changes only its result matches one that does the same. -/
theorem Matches.map {g : Except Stop τ} {h : Option (β × List Lexeme)}
    (hm : Matches filler R left words g h) {k : τ → Except Stop σ} {f : β → γ}
    (hk : ∀ x b, R x b → ∃ y, k x = .ok y ∧ left' y = left x ∧ R' y (f b)) :
    Matches filler R' left' words (g >>= k) (h.map fun (b, rest) => (f b, rest)) := by
  cases g with
  | ok x =>
    obtain ⟨ht, b, hb, rfl⟩ := hm
    obtain ⟨y, hy, hl, hr⟩ := hk x b hb
    -- mapping the answer is taking it apart, and the rest stays
    show Matches filler R' left' words (k x) (some (f b, lexemes filler (left x)))
    rw [hy]
    exact ⟨hl ▸ ht, f b, hr, by rw [hl]⟩
  | error e =>
    obtain rfl : h = none := hm
    rfl

/-- A reader that only hands its result on matches. -/
theorem Matches.pass {R' : σ → β → Prop} {g : Except Stop τ} {h : Option (β × List Lexeme)}
    (hm : Matches filler R left words g h) {k : τ → Except Stop σ}
    (hk : ∀ x b, R x b → ∃ y, k x = .ok y ∧ left' y = left x ∧ R' y b) :
    Matches filler R' left' words (g >>= k) h := by
  have hp : Matches filler R' left' words (g >>= k) (h.map fun (b, rest) => (id b, rest)) :=
    hm.map hk
  rwa [show (fun (x : β × List Lexeme) => (id x.1, x.2)) = id from rfl, Option.map_id_fun, id] at hp

/-- Words that have been taken before do not matter. -/
theorem Matches.after {before : List Word} {g : Except Stop τ} {h : Option (β × List Lexeme)}
    (ht : Took before words) (hm : Matches filler R left words g h) :
    Matches filler R left before g h := by
  cases g with
  | ok x => exact ⟨ht.trans hm.1, hm.2⟩
  | error e => exact hm

/-- A reader that stops matches one that gives up. -/
theorem matches_stopAt (before words : List Word) :
    Matches filler R left before (stopAt words) (none : Option (β × List Lexeme)) := by
  cases words <;> rfl

end Matches

/-! ### What the readers give -/

section Readers

variable (filler : Nat)

/-- An expression matches its plain tree. -/
abbrev PieceMatches {p : List Word → Prop} (words : List Word)
    (g : Except Stop (Piece × {rest : List Word // p rest}))
    (h : Option (Node × List Lexeme)) : Prop :=
  Matches filler (fun x n => x.1.tree.node? filler = some n) (fun x => x.2.1) words g h

/-- Items match their plain trees. -/
abbrev ItemsMatches {p : List Word → Prop} (words : List Word)
    (g : Except Stop (List Tree × Span × {rest : List Word // p rest}))
    (h : Option (List Node × List Lexeme)) : Prop :=
  Matches filler (fun x ns => Tree.items? filler x.1 = some ns) (fun x => x.2.2.1) words g h

/-- Arguments match the argument list that they make up. -/
abbrev ArgumentsMatch {p : List Word → Prop} (words : List Word)
    (g : Except Stop (List Tree × Span × {rest : List Word // p rest}))
    (h : Option (List Node × List Lexeme)) : Prop :=
  Matches filler (fun x ns => Tree.args? filler x.1 = some ns) (fun x => x.2.2.1) words g h

/-- Options match the argument list that they make up. -/
abbrev OptionsMatch {p : List Word → Prop} (words : List Word)
    (g : Except Stop (List Tree × {rest : List Word // p rest}))
    (h : Option (List Node × List Lexeme)) : Prop :=
  Matches filler (fun x ns => Tree.args? filler x.1 = some ns) (fun x => x.2.1) words g h

variable {filler}

theorem node?_binary {op : String} {left right : Piece} {l r : Node}
    (hl : left.tree.node? filler = some l) (hr : right.tree.node? filler = some r) :
    (Piece.binary op left right).tree.node? filler = some (.binary op l r) := by
  simp [Piece.binary, Tree.node?, hl, hr]

end Readers

/-- A number literal among the lexemes is read as its value. -/
theorem bare_primary?_number (filler : Nat) (whole : List Char) (fraction : Option (List Char))
    (u : List Lexeme) :
    bare (primary? (numberLexeme filler whole fraction :: u)) =
      some (.number (numberValue filler whole fraction), u) := by
  rcases numberLexeme_cases filler whole fraction with ⟨n, hn, hv⟩ | ⟨x, hx, hv⟩
  · rw [hn, hv, bare_primary?]
    rfl
  · rw [hx, hv, bare_primary?]

/-- No expression starts with a word that is no name, no literal and no opening mark. -/
theorem bare_primary?_eq_none {filler : Nat} {saying : Saying} {span : Span} {rest : List Word}
    (hname : saying.name? = none) (hnumber : ∀ whole fraction, saying ≠ .number whole fraction)
    (hstring : ∀ body, saying ≠ .string body) (hparen : saying ≠ .mark .leftParen)
    (hbracket : saying ≠ .mark .leftBracket) :
    bare (primary? (lexemes filler (⟨saying, span⟩ :: rest))) = none := by
  cases saying with
  | name | dotted => cases hname
  | number whole fraction => exact absurd rfl (hnumber whole fraction)
  | string body => exact absurd rfl (hstring body)
  | mark m =>
    rw [lexemes_mark, bare_primary?]
    cases m <;> first | rfl | exact absurd rfl hparen | exact absurd rfl hbracket
  | indicator | newline | stray => exact bare_primary? []

/-- Reads the arguments of a call behind its opening parenthesis, and the closing one. -/
def callArguments? : List Lexeme → Option (List Node × List Lexeme)
  | .mark .rightParen :: after => some ([], after)
  | u => bare (arguments? u)

/-- A name before a parenthesis is a call. -/
theorem bare_primary?_callArguments? (f : String) (u : List Lexeme) :
    bare (primary? (.name f :: .mark .leftParen :: u)) =
      (callArguments? u).map fun (args, after) => (.call f args, after) := by
  fun_cases callArguments? u
  · rw [bare_primary?]
    rfl
  · rename_i h
    exact bare_primary?_call h f

/-- Braces that are not closed at once have entries. -/
theorem bare_arguments?_options {u : List Lexeme}
    (h : ∀ v, u ≠ .mark .rightBrace :: .mark .rightParen :: v) :
    bare (arguments? (.mark .leftBrace :: u)) = (bare (options? u)).bind fun (pairs, rest) =>
      match rest with
      | .mark .rightParen :: after => some (pairs, after)
      | _ => none := by
  rw [bare_arguments?]
  split
  case h_1 heq =>
    cases heq
    exact absurd rfl (h _)
  case h_2 heq =>
    cases heq
    rfl
  all_goals simp_all

theorem isPlain_of_name? {saying : Saying} {name : String} (h : saying.name? = some name) :
    saying.isPlain := by
  cases saying <;> first | rfl | cases h

/-- A named argument starts with a name and an equals sign. -/
theorem of_namedStart?_eq_some {words : List Word} {name : String} {span : Span}
    {rest : Shorter words} (h : namedStart? words = some (name, span, rest)) :
    ∃ saying sign, words = ⟨saying, span⟩ :: ⟨.mark .assign, sign⟩ :: rest.1 ∧
      saying.name? = some name := by
  unfold namedStart? at h
  split at h
  · obtain ⟨name', hname, heq⟩ := Option.map_eq_some_iff.1 h
    cases heq
    exact ⟨_, _, rfl, hname⟩
  · cases h

/-- Nothing else starts with a name and an equals sign. -/
theorem lexemes_ne_of_namedStart? {words : List Word} (h : namedStart? words = none) (filler : Nat)
    (name : String) (u : List Lexeme) : lexemes filler words ≠ .name name :: .mark .assign :: u := by
  intro heq
  obtain ⟨saying, span, rest, rfl, hn, heq⟩ := lexemes_eq_name_cons heq
  obtain ⟨sign, rest, rfl, -⟩ := lexemes_eq_mark_cons heq.symm
  simp [namedStart?, hn] at h

/-- An option starts with a name and a colon. -/
theorem of_optionStart_eq_ok {words : List Word} {name : String} {span : Span}
    {rest : Shorter words} (h : optionStart words = .ok (name, span, rest)) :
    ∃ saying colon, words = ⟨saying, span⟩ :: ⟨.mark .colon, colon⟩ :: rest.1 ∧
      saying.name? = some name := by
  rcases words with _ | ⟨⟨saying, span'⟩, words⟩
  · cases h
  · cases saying with
    | name text | dotted text =>
      rcases words with _ | ⟨⟨saying, colon⟩, words⟩
      · cases h
      · cases saying with
        | mark m =>
          cases m <;> cases h
          exact ⟨_, _, rfl, rfl⟩
        | _ => cases h
    | _ => cases h

/-- Nothing else starts with a name and a colon. -/
theorem lexemes_ne_of_optionStart {words : List Word} {e : Stop} (h : optionStart words = .error e)
    (filler : Nat) (name : String) (u : List Lexeme) :
    lexemes filler words ≠ .name name :: .mark .colon :: u := by
  intro heq
  obtain ⟨saying, span, rest, rfl, hn, heq⟩ := lexemes_eq_name_cons heq
  obtain ⟨colon, rest, rfl, -⟩ := lexemes_eq_mark_cons heq.symm
  cases saying with
  | name | dotted => cases h
  | _ => cases hn

mutual

theorem sum_matches (filler : Nat) (words : List Word) :
    PieceMatches filler words (sum words) (bare (sum? (lexemes filler words))) := by
  rw [sum, bare_sum?]
  refine (product_matches filler words).bind ?_
  rintro ⟨left, rest, h⟩ l ht hl
  have hlt : rest.length < words.length := h
  refine ((sumTail_matches hl rest).after ht).pass ?_
  rintro ⟨piece, after, h'⟩ n hn
  exact ⟨_, rfl, rfl, hn⟩
termination_by 8 * words.length + 6

theorem sumTail_matches {filler : Nat} {left : Piece} {l : Node}
    (hl : left.tree.node? filler = some l) (words : List Word) :
    PieceMatches filler words (sumTail left words) (bare (sumTail? l (lexemes filler words))) := by
  -- the case split takes the words apart, and the measure still has to speak of them
  generalize hw : words = ws
  rw [sumTail.eq_def, bare_sumTail?]
  split
  · rename_i m span rest
    have hlen : words.length = rest.length + 1 := congrArg List.length hw
    rw [lexemes_mark]
    rcases hm : sumOperator? m with _ | op
    · simp only [hm]
      exact ⟨.refl _, l, hl, rfl⟩
    · simp only [hm]
      refine ((product_matches filler rest).after (.mark m span rest)).bind ?_
      rintro ⟨right, rest', h⟩ r ht hr
      have hlt : rest'.length < rest.length := h
      refine ((sumTail_matches (node?_binary hl hr) rest').after ht).pass ?_
      rintro ⟨piece, after, h'⟩ n hn
      exact ⟨_, rfl, rfl, hn⟩
  · rename_i hne
    split
    · rename_i heq
      obtain ⟨span, rest, rfl, -⟩ := lexemes_eq_mark_cons heq
      exact absurd rfl (hne _ _ _)
    · exact ⟨.refl _, l, hl, rfl⟩
termination_by 8 * words.length

theorem product_matches (filler : Nat) (words : List Word) :
    PieceMatches filler words (product words) (bare (product? (lexemes filler words))) := by
  rw [product, bare_product?]
  refine (power_matches filler words).bind ?_
  rintro ⟨left, rest, h⟩ l ht hl
  have hlt : rest.length < words.length := h
  refine ((productTail_matches hl rest).after ht).pass ?_
  rintro ⟨piece, after, h'⟩ n hn
  exact ⟨_, rfl, rfl, hn⟩
termination_by 8 * words.length + 5

theorem productTail_matches {filler : Nat} {left : Piece} {l : Node}
    (hl : left.tree.node? filler = some l) (words : List Word) :
    PieceMatches filler words (productTail left words)
      (bare (productTail? l (lexemes filler words))) := by
  generalize hw : words = ws
  rw [productTail.eq_def, bare_productTail?]
  split
  · rename_i m span rest
    have hlen : words.length = rest.length + 1 := congrArg List.length hw
    rw [lexemes_mark]
    rcases hm : productOperator? m with _ | op
    · simp only [hm]
      exact ⟨.refl _, l, hl, rfl⟩
    · simp only [hm]
      refine ((power_matches filler rest).after (.mark m span rest)).bind ?_
      rintro ⟨right, rest', h⟩ r ht hr
      have hlt : rest'.length < rest.length := h
      refine ((productTail_matches (node?_binary hl hr) rest').after ht).pass ?_
      rintro ⟨piece, after, h'⟩ n hn
      exact ⟨_, rfl, rfl, hn⟩
  · rename_i hne
    split
    · rename_i heq
      obtain ⟨span, rest, rfl, -⟩ := lexemes_eq_mark_cons heq
      exact absurd rfl (hne _ _ _)
    · exact ⟨.refl _, l, hl, rfl⟩
termination_by 8 * words.length

theorem power_matches (filler : Nat) (words : List Word) :
    PieceMatches filler words (power words) (bare (power? (lexemes filler words))) := by
  rw [power, bare_power?]
  refine (signed_matches filler words).bind ?_
  rintro ⟨base, rest, h⟩ b ht hb
  have hlt : rest.length < words.length := h
  dsimp only at ht hb ⊢
  split
  · rename_i span rest h
    rw [lexemes_mark]
    have hlt' : rest.length < words.length := Nat.lt_of_succ_lt hlt
    refine ((power_matches filler rest).after (ht.trans (.mark _ span rest))).map ?_
    rintro ⟨exponent, after, h'⟩ e he
    exact ⟨_, rfl, rfl, node?_binary hb he⟩
  · rename_i hne
    split
    · rename_i heq
      obtain ⟨span, rest, rfl, -⟩ := lexemes_eq_mark_cons heq
      exact (hne _ _ _ rfl HEq.rfl).elim
    · exact ⟨ht, b, hb, rfl⟩
termination_by 8 * words.length + 4

theorem signed_matches (filler : Nat) (words : List Word) :
    PieceMatches filler words (signed words) (bare (signed? (lexemes filler words))) := by
  generalize hw : words = ws
  rw [signed.eq_def, bare_signed?]
  split
  · rename_i m span rest
    have hlen : words.length = rest.length + 1 := congrArg List.length hw
    rw [lexemes_mark]
    rcases hm : sumOperator? m with _ | op
    · simp only [hm]
      exact subscripted_matches filler (⟨.mark m, span⟩ :: rest)
    · simp only [hm]
      refine ((signed_matches filler rest).after (.mark m span rest)).map ?_
      rintro ⟨operand, after, h⟩ o ho
      exact ⟨_, rfl, rfl, by simp [Tree.node?, ho]⟩
  · rename_i hne
    split
    · rename_i heq
      obtain ⟨span, rest, rfl, -⟩ := lexemes_eq_mark_cons heq
      exact absurd rfl (hne _ _ _)
    · rw [← hw]
      exact subscripted_matches filler words
termination_by 8 * words.length + 3

theorem subscripted_matches (filler : Nat) (words : List Word) :
    PieceMatches filler words (subscripted words) (bare (subscripted? (lexemes filler words))) := by
  rw [subscripted, bare_subscripted?]
  refine (primary_matches filler words).bind ?_
  rintro ⟨target, rest, h⟩ t ht hn
  have hlt : rest.length < words.length := h
  refine ((subscripts_matches hn rest).after ht).pass ?_
  rintro ⟨piece, after, h'⟩ n hn
  exact ⟨_, rfl, rfl, hn⟩
termination_by 8 * words.length + 2

theorem subscripts_matches {filler : Nat} {target : Piece} {t : Node}
    (ht : target.tree.node? filler = some t) (words : List Word) :
    PieceMatches filler words (subscripts target words)
      (bare (subscripts? t (lexemes filler words))) := by
  generalize hw : words = ws
  rw [subscripts.eq_def, bare_subscripts?]
  split
  · rename_i span rest
    have hlen : words.length = rest.length + 1 := congrArg List.length hw
    rw [lexemes_mark]
    refine ((sum_matches filler rest).after (.mark _ span rest)).bind ?_
    rintro ⟨position, rest', h⟩ i htook hi
    have hlt : rest'.length < rest.length := h
    dsimp only at htook hi ⊢
    split
    · rename_i closing rest' h
      rw [lexemes_mark]
      have hlt' : rest'.length < rest.length := Nat.lt_of_succ_lt hlt
      have hx : (Tree.index target.tree position.tree (target.outer.to closing)).node? filler =
          some (.index t i) := by
        simp [Tree.node?, ht, hi]
      refine ((subscripts_matches hx rest').after (htook.trans (.mark _ closing rest'))).pass ?_
      rintro ⟨piece, after, h'⟩ n hn
      exact ⟨_, rfl, rfl, hn⟩
    · rename_i hne
      split
      · rename_i heq
        obtain ⟨closing, rest', rfl, -⟩ := lexemes_eq_mark_cons heq
        exact (hne _ _ _ rfl HEq.rfl).elim
      · exact matches_stopAt _ _
  · rename_i hne
    split
    · rename_i heq
      obtain ⟨span, rest, rfl, -⟩ := lexemes_eq_mark_cons heq
      exact absurd rfl (hne _ _)
    · exact ⟨.refl _, t, ht, rfl⟩
termination_by 8 * words.length

theorem primary_matches (filler : Nat) (words : List Word) :
    PieceMatches filler words (primary words) (bare (primary? (lexemes filler words))) := by
  generalize hw : words = ws
  rw [primary.eq_def]
  split
  · rename_i whole fraction span rest
    rw [lexemes_number, bare_primary?_number]
    exact ⟨.one rfl rest, _, rfl, rfl⟩
  · rename_i body span rest
    rw [lexemes_string, bare_primary?]
    exact ⟨.one rfl rest, _, rfl, rfl⟩
  · -- parentheses
    rename_i opening rest
    have hlen : words.length = rest.length + 1 := congrArg List.length hw
    rw [lexemes_mark, bare_primary?]
    refine ((sum_matches filler rest).after (.mark _ opening rest)).bind ?_
    rintro ⟨piece, rest', h⟩ n ht hn
    dsimp only at ht hn ⊢
    split
    · rename_i closing after h
      exact ⟨ht.trans (.mark _ closing after), n, hn, rfl⟩
    · rename_i hne
      split
      · rename_i heq
        obtain ⟨closing, rest', rfl, -⟩ := lexemes_eq_mark_cons heq
        exact (hne _ _ _ rfl HEq.rfl).elim
      · exact matches_stopAt _ _
  · -- an empty list
    rename_i opening closing rest
    rw [lexemes_mark, lexemes_mark, bare_primary?]
    exact ⟨(Took.mark _ opening _).trans (.mark _ closing rest), _, rfl, rfl⟩
  · -- a list with items
    rename_i opening rest hne
    have hlen : words.length = rest.length + 1 := congrArg List.length hw
    rw [lexemes_mark, bare_primary?_array]
    · refine ((listItems_matches filler rest).after (.mark _ opening rest)).map ?_
      rintro ⟨items, closing, after, h⟩ ns hns
      exact ⟨_, rfl, rfl, by simp [Tree.node?, hns]⟩
    · intro u heq
      obtain ⟨closing, rest, rfl, -⟩ := lexemes_eq_mark_cons heq
      exact hne _ _ rfl
  · -- a name, perhaps with arguments behind it
    rename_i saying span rest hnumber hstring hparen _ hbracket
    have hlen : words.length = rest.length + 1 := congrArg List.length hw
    rcases hn : saying.name? with _ | name
    · -- all other first words are refused by both
      exact bare_primary?_eq_none hn hnumber hstring hparen hbracket
    · have hplain : saying.isPlain := by
        cases saying <;> first | rfl | cases hn
      simp only
      rw [lexemes_of_name? hn]
      split
      · rename_i opening rest _
        rw [lexemes_mark, bare_primary?_callArguments?]
        refine ((callArguments_matches filler rest).after
          ((Took.one hplain _).trans (.mark _ opening rest))).map ?_
        rintro ⟨args, closing, after, h⟩ ns hns
        exact ⟨_, rfl, rfl, by simp [Tree.node?, hns]⟩
      · rename_i hne
        rw [bare_primary?_name]
        · exact ⟨.one hplain rest, _, rfl, rfl⟩
        · intro u heq
          obtain ⟨opening, rest, rfl, -⟩ := lexemes_eq_mark_cons heq
          exact hne _ _ rfl
  · exact bare_primary? []
termination_by 8 * words.length + 1

theorem listItems_matches (filler : Nat) (words : List Word) :
    ItemsMatches filler words (listItems words) (bare (items? (lexemes filler words))) := by
  rw [listItems, bare_items?]
  refine (sum_matches filler words).bind ?_
  rintro ⟨item, rest, h⟩ n ht hn
  have hlt : rest.length < words.length := h
  dsimp only at ht hn ⊢
  split
  · rename_i closing after h
    exact ⟨ht.trans (.mark _ closing after), [n], by simp [Tree.items?, hn], rfl⟩
  · rename_i comma rest h
    have hlt' : rest.length < words.length := Nat.lt_of_succ_lt hlt
    rw [lexemes_mark]
    refine ((listItems_matches filler rest).after (ht.trans (.mark _ comma rest))).map ?_
    rintro ⟨items, closing, after, h'⟩ ns hns
    exact ⟨_, rfl, rfl, by simp [Tree.items?, hn, hns]⟩
  · rename_i hclose hcomma
    split
    · rename_i heq
      obtain ⟨closing, rest', rfl, -⟩ := lexemes_eq_mark_cons heq
      exact (hclose _ _ _ rfl HEq.rfl).elim
    · rename_i heq
      obtain ⟨comma, rest', rfl, -⟩ := lexemes_eq_mark_cons heq
      exact (hcomma _ _ _ rfl HEq.rfl).elim
    · exact matches_stopAt _ _
termination_by 8 * words.length + 7

theorem callArguments_matches (filler : Nat) (words : List Word) :
    ArgumentsMatch filler words (callArguments words) (callArguments? (lexemes filler words)) := by
  generalize hw : words = ws
  rw [callArguments.eq_def]
  split
  · rename_i closing after
    exact ⟨.mark _ closing after, [], rfl, rfl⟩
  · rename_i hne
    rw [callArguments?.eq_def]
    split
    · rename_i heq
      obtain ⟨closing, after, rfl, -⟩ := lexemes_eq_mark_cons heq
      exact absurd rfl (hne _ _)
    · rw [← hw]
      exact arguments_matches filler words
termination_by 8 * words.length + 8

theorem arguments_matches (filler : Nat) (words : List Word) :
    ArgumentsMatch filler words (arguments words) (bare (arguments? (lexemes filler words))) := by
  generalize hw : words = ws
  rw [arguments.eq_def]
  split
  · -- no options
    rename_i left right closing after
    rw [lexemes_mark, lexemes_mark, lexemes_mark, bare_arguments?]
    exact ⟨((Took.mark _ left _).trans (.mark _ right _)).trans (.mark _ closing after), [], rfl, rfl⟩
  · -- no options, and something else behind them
    rename_i left right rest hne
    rw [lexemes_mark, lexemes_mark, bare_arguments?_options, bare_options?]
    · exact matches_stopAt _ _
    · intro u heq
      obtain ⟨closing, after, rfl, -⟩ := lexemes_eq_mark_cons (List.cons.inj heq).2
      exact hne _ _ rfl
  · -- options
    rename_i left rest hclose hempty
    have hlen : words.length = rest.length + 1 := congrArg List.length hw
    rw [lexemes_mark, bare_arguments?_options]
    · refine ((options_matches filler rest).after (.mark _ left rest)).bind ?_
      rintro ⟨pairs, rest', h⟩ ns ht hns
      dsimp only at ht hns ⊢
      split
      · rename_i closing after h
        exact ⟨ht.trans (.mark _ closing after), ns, hns, rfl⟩
      · rename_i hne
        split
        · rename_i heq
          obtain ⟨closing, after, rfl, -⟩ := lexemes_eq_mark_cons heq
          exact (hne _ _ _ rfl HEq.rfl).elim
        · exact matches_stopAt _ _
    · intro u heq
      obtain ⟨right, rest, rfl, -⟩ := lexemes_eq_mark_cons heq
      exact hempty _ _ rfl
  · rename_i hclose hempty hleft
    split
    · -- a named argument
      rename_i name span rest h hn
      obtain ⟨saying, sign, hs, hname⟩ := of_namedStart?_eq_some hn
      have hlt₀ : rest.length < words.length := by
        rw [hw]
        exact h
      have htook : Took ws rest := by
        rw [hs]
        exact (Took.one (isPlain_of_name? hname) _).trans (.mark _ sign rest)
      have hl : lexemes filler ws = .name name :: .mark .assign :: lexemes filler rest := by
        rw [hs, lexemes_of_name? hname, lexemes_mark]
      rw [hl, bare_arguments?]
      refine ((sum_matches filler rest).after htook).bind ?_
      rintro ⟨value, rest', h'⟩ v ht hv
      have hlt : rest'.length < rest.length := h'
      refine ((moreArguments_matches filler rest').after ht).map ?_
      rintro ⟨more, closing, after, h''⟩ ns hns
      exact ⟨_, rfl, rfl, by rw [Tree.args?_named, hv, hns]; rfl⟩
    · -- an expression
      rename_i hn
      rw [bare_arguments?_positional _ (lexemes_ne_of_namedStart? hn filler), ← hw]
      · refine (sum_matches filler words).bind ?_
        rintro ⟨arg, rest, h⟩ n ht hn
        have hlt : rest.length < words.length := h
        refine ((moreArguments_matches filler rest).after ht).map ?_
        rintro ⟨more, closing, after, h'⟩ ns hns
        exact ⟨_, rfl, rfl, by rw [Tree.args?_cons hn, hns]; rfl⟩
      · intro u heq
        obtain ⟨left, rest, rfl, -⟩ := lexemes_eq_mark_cons heq
        exact hleft _ _ rfl
termination_by 8 * words.length + 7

theorem moreArguments_matches (filler : Nat) (words : List Word) :
    ArgumentsMatch filler words (moreArguments words)
      (bare (moreArguments? (lexemes filler words))) := by
  generalize hw : words = ws
  rw [moreArguments.eq_def]
  split
  · rename_i closing after
    rw [lexemes_mark, bare_moreArguments?]
    exact ⟨.mark _ closing after, [], rfl, rfl⟩
  · rename_i comma rest
    have hlen : words.length = rest.length + 1 := congrArg List.length hw
    rw [lexemes_mark, bare_moreArguments?]
    refine ((arguments_matches filler rest).after (.mark _ comma rest)).pass ?_
    rintro ⟨args, closing, after, h⟩ ns hns
    exact ⟨_, rfl, rfl, hns⟩
  · rename_i hclose hcomma
    rw [bare_moreArguments?]
    split
    · rename_i heq
      obtain ⟨closing, rest', rfl, -⟩ := lexemes_eq_mark_cons heq
      exact absurd rfl (hclose _ _)
    · rename_i heq
      obtain ⟨comma, rest', rfl, -⟩ := lexemes_eq_mark_cons heq
      exact absurd rfl (hcomma _ _)
    · exact matches_stopAt _ _
termination_by 8 * words.length

theorem options_matches (filler : Nat) (words : List Word) :
    OptionsMatch filler words (options words) (bare (options? (lexemes filler words))) := by
  rw [options.eq_def, bare_options?]
  rcases ho : optionStart words with e | ⟨name, span, rest, h⟩
  · split
    · rename_i heq
      exact absurd heq (lexemes_ne_of_optionStart ho filler _ _)
    · rfl
  · obtain ⟨saying, colon, hs, hname⟩ := of_optionStart_eq_ok ho
    have htook : Took words rest := by
      rw [hs]
      exact (Took.one (isPlain_of_name? hname) _).trans (.mark _ colon rest)
    have hl : lexemes filler words = .name name :: .mark .colon :: lexemes filler rest := by
      rw [hs, lexemes_of_name? hname, lexemes_mark]
    rw [hl]
    refine ((sum_matches filler rest).after htook).bind ?_
    rintro ⟨value, rest', h'⟩ v ht hv
    have hlt : rest'.length < rest.length := h'
    dsimp only at ht hv ⊢
    split
    · rename_i closing after h'
      have hp : Tree.args? filler [.named name value.tree (span.to value.outer)] =
          some (Node.pair name v) := by
        rw [Tree.args?_named, hv]
        rfl
      exact ⟨ht.trans (.mark _ closing after), _, hp, rfl⟩
    · rename_i comma rest'' h'
      have hlt' : rest''.length < rest.length := Nat.lt_of_succ_lt hlt
      rw [lexemes_mark]
      refine ((options_matches filler rest'').after (ht.trans (.mark _ comma rest''))).map ?_
      rintro ⟨more, after, h''⟩ ns hns
      exact ⟨_, rfl, rfl, by rw [Tree.args?_named, hv, hns]; rfl⟩
    · rename_i hclose hcomma
      split
      · rename_i heq
        obtain ⟨closing, rest', rfl, -⟩ := lexemes_eq_mark_cons heq
        exact (hclose _ _ _ rfl HEq.rfl).elim
      · rename_i heq
        obtain ⟨comma, rest', rfl, -⟩ := lexemes_eq_mark_cons heq
        exact (hcomma _ _ _ rfl HEq.rfl).elim
      · exact matches_stopAt _ _
termination_by 8 * words.length

end

end ChartScript.Grammar
