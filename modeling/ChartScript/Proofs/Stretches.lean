import ChartScript.Proofs.Legible
import ChartScript.Proofs.Literals

/-!
# Where every character of a line goes

A line that is cut into tokens is spacing, lexemes and perhaps a comment at its end, and nothing else:
no character is lost at a seam, and none is taken twice.

What a lexeme is can be told from its own characters, without the lexer. The first of them determine
its kind (`ChartScript.Syntax.Kind.of?`), and the kind determines how they are read
(`ChartScript.Syntax.Kind.lexeme?`): as a numeral, as what stands between two quotes, or as they are. A
*stretch* of a line (`ChartScript.Syntax.Stretch`) is a lexeme with the spacing in front of it, so the
columns of the tokens are counted off the stretches (`ChartScript.Syntax.tokensFrom`).

The lexer goes over stretches until it stops, and there are three ways to stop: the line is at its
end, a comment starts, or there is something that makes no sense. An *account* of a line
(`ChartScript.Syntax.Account`) divides it into stretches, the spacing behind them and the rest, and it
explains what the lexer gives back (`ChartScript.Syntax.Account.Explains`). Spacing and a lexeme can be
put in front of a line together with its account, and so every line has an account that explains it.
This is the main result, `ChartScript.Syntax.scan_accounts`.
-/

namespace ChartScript.Syntax

open ChartScript.Text

/-! ### Kinds of lexemes -/

/-- The kind of a lexeme. -/
inductive Kind where
  /-- A number. -/
  | number
  /-- A string. -/
  | string
  /-- A name. -/
  | name
  /-- A mark. -/
  | mark (m : Mark)
deriving DecidableEq

/-- The kind of the lexeme that a text starts with, as its first characters tell. -/
def Kind.of? : List Char → Option Kind
  | [] => none
  | c :: rest =>
    if startsNumber c rest then some .number
    else if c = '"' || c = '\'' then some .string
    else if isNameStart c then some .name
    else (Mark.ofChar? c).map .mark

/-- The kind of what a token says. -/
def Lexeme.kind : Lexeme → Kind
  | .int _ | .float _ => .number
  | .string _ => .string
  | .name _ => .name
  | .mark m => .mark m

/-- What a text stands for as a numeral: a float if it has a point, and an integer otherwise. -/
def numeral? (text : List Char) : Option Lexeme :=
  if '.' ∈ text then (Number.readFloat? text).map .float
  else (Number.readInt? text).bind fun n => n.toNat?.map .int

/-- What stands between two quotes, of which the second one closes the first one. -/
def between? : List Char → Option (List Char)
  | [] => none
  | quote :: rest =>
    match stringBody? quote rest with
    | some (body, []) => some body
    | _ => none

/-- What a text says as a lexeme of a kind. -/
def Kind.lexeme? (text : List Char) : Kind → Option Lexeme
  | .number => numeral? text
  | .string => (between? text).map fun body => .string (String.ofList (unescape body))
  | .name => if (nameRest text.tail).2 = [] then some (.name (String.ofList text)) else none
  | .mark m => if text = [m.char] then some (.mark m) else none

/-- A lexeme of a kind does not go on in the text behind it. -/
def Kind.EndsBefore (after : List Char) : Kind → Prop
  | .number => ∀ c ∈ after.head?, isDigit c = false
  | .name => ∀ c ∈ after.head?, isWordChar c = false
  | .string | .mark _ => True

/-! ### Lines in stretches -/

/-- A lexeme and the spacing in front of it. -/
structure Stretch where
  /-- The spacing. -/
  gap : List Char
  /-- The characters of the lexeme. -/
  raw : List Char
  /-- What the lexeme says. -/
  lexeme : Lexeme

/-- The characters of a stretch. -/
def Stretch.text (s : Stretch) : List Char := s.gap ++ s.raw

/-- The characters of several stretches. -/
def spelled (stretches : List Stretch) : List Char := stretches.flatMap Stretch.text

/-- The tokens of stretches behind a number of characters. -/
def tokensFrom (offset : Nat) : List Stretch → List Token
  | [] => []
  | s :: more => ⟨s.lexeme, offset + s.gap.length + 1⟩ :: tokensFrom (offset + s.text.length) more

/-- **A stretch stands in front of a text**: it is spacing and then a lexeme, which says what its
characters say and ends where the text starts. -/
structure Stretch.Stands (s : Stretch) (after : List Char) : Prop where
  /-- In front of the lexeme there is only spacing. -/
  gap : ∀ c ∈ s.gap, isSpacing c
  /-- The first characters of the lexeme determine its kind. -/
  kind : Kind.of? s.raw = some s.lexeme.kind
  /-- All its characters determine what it says. -/
  value : s.lexeme.kind.lexeme? s.raw = some s.lexeme
  /-- It does not go on. -/
  ends : s.lexeme.kind.EndsBefore after

/-- Every stretch stands in front of the next ones and the text behind them. -/
def AllStand : List Stretch → List Char → Prop
  | [], _ => True
  | s :: more, after => s.Stands (spelled more ++ after) ∧ AllStand more after

/-- What makes no sense at the start of a text that stands behind a number of characters. -/
def LexError.PointsAt (offset : Nat) (text : List Char) : LexError → Prop
  | .unexpected c column =>
    column = offset + 1 ∧ text.head? = some c ∧ Kind.of? text = none
  | .unterminated column =>
    column = offset + 1 ∧ ∃ quote rest, text = quote :: rest ∧ Kind.of? text = some .string ∧
      stringBody? quote rest = none
  | .unreadableNumber => Kind.of? text = some .number ∧ StartsValueless text

@[simp] theorem spelled_nil : spelled [] = [] := rfl

@[simp] theorem spelled_cons (s : Stretch) (more : List Stretch) :
    spelled (s :: more) = s.gap ++ s.raw ++ spelled more := by
  rw [spelled, List.flatMap_cons, Stretch.text, ← spelled]

/-! ### One lexeme -/

/-- Only behind a point the kind depends on a second character. -/
theorem Kind.of?_cons {c : Char} (h : c ≠ '.') (rest rest' : List Char) :
    Kind.of? (c :: rest) = Kind.of? (c :: rest') := by
  simp [Kind.of?, startsNumber, h]

theorem not_isDigit_of_valueless {whole : List Char} {fraction : Option (List Char)}
    (h : ¬ Number.Valueless whole fraction) :
    ∀ c ∈ whole ++ fraction.getD [], isDecimalDigit c := by
  intro c hc
  by_contra hd
  exact h (.inl ⟨c, hc, by simpa using hd⟩)

/-- Behind a fraction there is no digit. -/
theorem fractionRest_ends {text : List Char} {fraction : Option (List Char)} {rest : List Char}
    (ht : ∀ c ∈ text.head?, isDigit c = false) (h : fractionRest text = (fraction, rest)) :
    ∀ c ∈ rest.head?, isDigit c = false := by
  revert h
  fun_cases fractionRest text with
  | case1 c more hc =>
    rintro ⟨⟩ d hd
    have := List.head?_dropWhile_not isDigit more
    rw [Option.mem_def.1 hd] at this
    simpa using this
  | case2 | case3 =>
    rintro ⟨⟩
    exact ht

/-- Digits, and a fraction if there is one, are a number. -/
theorem Kind.of?_number {whole : List Char} {fraction : Option (List Char)}
    (h : ∀ c ∈ whole ++ fraction.getD [], isDecimalDigit c) (hw : fraction = none → whole ≠ [])
    (hf : fraction ≠ some []) : Kind.of? (whole ++ fraction.elim [] ('.' :: ·)) = some .number := by
  rcases whole with _ | ⟨c, whole⟩
  · rcases fraction with _ | _ | ⟨d, fraction⟩
    · exact absurd rfl (hw rfl)
    · exact absurd rfl hf
    · have hd : isDigit d := isDigit_of_isDecimalDigit (h d (by simp))
      simp [Kind.of?, startsNumber, hd]
  · have hc : isDigit c := isDigit_of_isDecimalDigit (h c (by simp))
    simp [Kind.of?, startsNumber, hc]

/-- **A number literal says what it does as a numeral.** -/
theorem stands_of_cutNumber {c : Char} {rest : List Char} (hs : startsNumber c rest) {found : Cut}
    (h : cutNumber (c :: rest) = .ok found) :
    (Stretch.mk [] found.raw found.lexeme).Stands found.rest := by
  have hvalue : ¬ StartsValueless (c :: rest) := by
    intro hv
    rw [(cutNumber_eq_error hs).2 ⟨rfl, hv⟩] at h
    cases h
  have hstop : ∀ d ∈ ((c :: rest).dropWhile isDigit).head?, isDigit d = false := by
    intro d hd
    have := List.head?_dropWhile_not isDigit (c :: rest)
    rw [Option.mem_def.1 hd] at this
    simpa using this
  rw [StartsValueless] at hvalue
  rw [cutNumber] at h
  split at h <;> rename_i heq <;> rw [heq] at hvalue <;> split at h <;> rename_i hread <;> cases h
  · have hd := not_isDigit_of_valueless hvalue
    have hne := takeWhile_ne_nil_of_startsNumber hs heq
    have hkind := Kind.of?_number hd (fun _ => hne) (by simp)
    simp only [Option.elim_none, Option.getD_none, List.append_nil] at hd hkind
    refine ⟨List.forall_mem_nil _, hkind, ?_, fractionRest_ends hstop heq⟩
    have hpoint : '.' ∉ (c :: rest).takeWhile isDigit := fun hp => absurd (hd '.' hp) (by decide)
    simp [Lexeme.kind, Kind.lexeme?, numeral?, hpoint, Number.readInt?_eq_literalInt? hd, hread,
      Int.toNat?]
  · have hd := not_isDigit_of_valueless hvalue
    refine ⟨List.forall_mem_nil _, Kind.of?_number hd (by simp) ?_, ?_, fractionRest_ends hstop heq⟩
    · simpa using ne_nil_of_fractionRest heq
    · rw [Option.getD_some] at hd
      simp [Lexeme.kind, Kind.lexeme?, numeral?, Number.readFloat?_of_decimals hd, hread]

/-- The inside of a string literal holds no quote that would close it before its end. -/
theorem stringBody?_body {quote : Char} {text body rest : List Char}
    (h : stringBody? quote text = some (body, rest)) :
    stringBody? quote (body ++ [quote]) = some (body, []) := by
  fun_induction stringBody? quote text generalizing body rest with
  | case1 => cases h
  | case2 c more ih =>
    obtain ⟨⟨body, _⟩, hbody, ⟨⟩⟩ := Option.map_eq_some_iff.1 h
    simp [stringBody?, ih hbody]
  | case3 more hne =>
    cases h
    simp [stringBody?]
  | case4 c more hne hc ih =>
    obtain ⟨⟨body, _⟩, hbody, ⟨⟩⟩ := Option.map_eq_some_iff.1 h
    have hslash : c ≠ '\\' := by
      rintro rfl
      rcases more with _ | ⟨d, more⟩
      · cases hbody
      · exact hne d more rfl rfl
    rw [List.cons_append, stringBody?, if_neg hc, ih hbody]
    · rfl
    · intro _ _ hpair
      exact absurd hpair hslash

/-- Behind a name there is no word character. -/
theorem nameRest_ends (text : List Char) : ∀ c ∈ (nameRest text).2.head?, isWordChar c = false := by
  fun_induction nameRest text with
  | case1 c rest hc name after heq ih =>
    rwa [heq] at ih
  | case2 c rest hc =>
    rintro d ⟨⟩
    exact not_isWordChar_point
  | case3 c rest hne hc name after heq ih =>
    rwa [heq] at ih
  | case4 c rest hne hc =>
    rintro d ⟨⟩
    simpa using hc
  | case5 => simp

/-- **The lexeme at the start of a text stands in front of the rest.** -/
theorem stands_of_cut {column : Nat} {c : Char} {rest : List Char} {found : Cut}
    (h : cut column c rest = .ok found) :
    (Stretch.mk [] found.raw found.lexeme).Stands found.rest := by
  rw [cut] at h
  split at h <;> rename_i hs
  · exact stands_of_cutNumber hs h
  -- no other lexeme starts with a point, so one character determines its kind
  have hkind : c ≠ '.' → ∀ more, Kind.of? (c :: more) = Kind.of? (c :: rest) :=
    fun hc more => Kind.of?_cons hc _ _
  rw [Kind.of?, if_neg hs] at hkind
  split at h <;> rename_i hq
  · split at h <;> rename_i hbody <;> cases h
    rw [if_pos hq] at hkind
    refine ⟨List.forall_mem_nil _, hkind (by rintro rfl; simp at hq) _, ?_, trivial⟩
    simp [Lexeme.kind, Kind.lexeme?, between?, stringBody?_body hbody]
  rw [if_neg hq] at hkind
  split at h <;> rename_i hn
  · cases h
    rw [if_pos hn] at hkind
    refine ⟨List.forall_mem_nil _, hkind ?_ _, ?_, nameRest_ends rest⟩
    · rintro rfl
      rw [not_isNameStart_of_not_isWordChar not_isWordChar_point] at hn
      cases hn
    · simp [Lexeme.kind, Kind.lexeme?, nameRest_nameRest]
  · rw [if_neg hn] at hkind
    split at h <;> rename_i hm <;> cases h
    rw [hm] at hkind
    have hc := char_of_ofChar? hm
    refine ⟨List.forall_mem_nil _, hkind ?_ _, ?_, trivial⟩
    · rw [hc]
      exact (not_isWordChar_char _).2.1
    · simp [Lexeme.kind, Kind.lexeme?, hc]

/-- **What cannot be cut is what the failure points at.** -/
theorem pointsAt_of_cut {offset : Nat} {c : Char} {rest : List Char} {e : LexError}
    (h : cut (offset + 1) c rest = .error e) : e.PointsAt offset (c :: rest) := by
  rw [cut] at h
  split at h <;> rename_i hs
  · obtain ⟨rfl, hv⟩ := (cutNumber_eq_error hs).1 h
    exact ⟨by rw [Kind.of?, if_pos hs], hv⟩
  split at h <;> rename_i hq
  · split at h <;> rename_i hbody <;> cases h
    exact ⟨rfl, c, rest, rfl, by rw [Kind.of?, if_neg hs, if_pos hq], hbody⟩
  split at h <;> rename_i hn
  · cases h
  · split at h <;> rename_i hm <;> cases h
    exact ⟨rfl, rfl, by rw [Kind.of?, if_neg hs, if_neg hq, if_neg hn, hm, Option.map_none]⟩

/-! ### The whole line -/

/-- **An account of a text**: stretches, the spacing behind the last one, and the rest, at which the
lexer stops. -/
structure Account (text : List Char) where
  /-- The stretches. -/
  stretches : List Stretch
  /-- The spacing behind the stretches. -/
  gap : List Char
  /-- What is left. -/
  rest : List Char
  /-- These parts are the text. -/
  whole : spelled stretches ++ gap ++ rest = text
  /-- In the gap there is only spacing. -/
  spacing : ∀ c ∈ gap, isSpacing c
  /-- Every lexeme stands in front of what is behind it. -/
  stand : AllStand stretches (gap ++ rest)

/-- The number of characters in front of the rest. -/
def Account.passed {text : List Char} (a : Account text) : Nat :=
  (spelled a.stretches ++ a.gap).length

/-- **An account explains an outcome of the lexer** on a text that stands behind a number of
characters. If the lexer is done then the rest is empty or a comment, and the tokens are those of the
stretches. If it fails then the failure points at the rest. -/
def Account.Explains {text : List Char} (a : Account text) (offset : Nat) :
    Except LexError Scan → Prop
  | .ok scan =>
    (a.rest = [] ∨ ['/', '/'] <+: a.rest) ∧ scan.tokens = tokensFrom offset a.stretches ∧
      scan.stop = offset + a.passed + 1
  | .error e => e.PointsAt (offset + a.passed) a.rest

/-- The account of a text at which the lexer stops. -/
def Account.stopped (text : List Char) : Account text where
  stretches := []
  gap := []
  rest := text
  whole := rfl
  spacing := List.forall_mem_nil _
  stand := trivial

/-- The account of a text with spacing in front of it. -/
def Account.spaced {c : Char} {text : List Char} (hc : isSpacing c) :
    Account text → Account (c :: text)
  | { stretches := [], gap, rest, whole, spacing, stand := _ } => {
      stretches := []
      gap := c :: gap
      rest
      whole := congrArg (c :: ·) whole
      spacing := List.forall_mem_cons.2 ⟨hc, spacing⟩
      stand := trivial }
  | { stretches := s :: more, gap, rest, whole, spacing, stand } => {
      stretches := { s with gap := c :: s.gap } :: more
      gap
      rest
      whole := by simpa using whole
      spacing
      stand := ⟨{ stand.1 with gap := List.forall_mem_cons.2 ⟨hc, stand.1.gap⟩ }, stand.2⟩ }

/-- The account of a text with a lexeme in front of it. -/
def Account.extended {raw text : List Char} {lexeme : Lexeme}
    (h : (Stretch.mk [] raw lexeme).Stands text) (a : Account text) : Account (raw ++ text) where
  stretches := ⟨[], raw, lexeme⟩ :: a.stretches
  gap := a.gap
  rest := a.rest
  whole := by simpa using a.whole
  spacing := a.spacing
  stand := ⟨by rw [← List.append_assoc, a.whole]; exact h, a.stand⟩

variable {text : List Char} {offset : Nat} {outcome : Except LexError Scan}

@[simp] theorem Account.rest_spaced {c : Char} (hc : isSpacing c) (a : Account text) :
    (a.spaced hc).rest = a.rest := by
  rcases a with ⟨_ | ⟨s, more⟩, gap, rest, whole, spacing, stand⟩ <;> rfl

theorem Account.passed_spaced {c : Char} (hc : isSpacing c) (a : Account text) :
    (a.spaced hc).passed = a.passed + 1 := by
  rcases a with ⟨_ | ⟨s, more⟩, gap, rest, whole, spacing, stand⟩ <;> rfl

/-- The tokens are one character further behind. -/
theorem Account.tokensFrom_spaced {c : Char} (hc : isSpacing c) (a : Account text) (offset : Nat) :
    tokensFrom offset (a.spaced hc).stretches = tokensFrom (offset + 1) a.stretches := by
  rcases a with ⟨_ | ⟨s, more⟩, gap, rest, whole, spacing, stand⟩
  · rfl
  · simp [Account.spaced, tokensFrom, Stretch.text, Nat.add_assoc, Nat.add_comm 1]

theorem Account.Explains.spaced {c : Char} (hc : isSpacing c) {a : Account text}
    (h : a.Explains (offset + 1) outcome) : (a.spaced hc).Explains offset outcome := by
  have hpassed : offset + (a.spaced hc).passed = offset + 1 + a.passed := by
    rw [a.passed_spaced hc, Nat.add_assoc, Nat.add_comm 1]
  rcases outcome with e | scan
  · rwa [Account.Explains, hpassed, a.rest_spaced hc]
  · rwa [Account.Explains, hpassed, a.rest_spaced hc, a.tokensFrom_spaced hc]

theorem Account.Explains.extended {raw : List Char} {lexeme : Lexeme}
    (hs : (Stretch.mk [] raw lexeme).Stands text) {a : Account text}
    (h : a.Explains (offset + raw.length) outcome) :
    (a.extended hs).Explains offset
      (outcome.map fun scan => { scan with tokens := ⟨lexeme, offset + 1⟩ :: scan.tokens }) := by
  have hpassed : offset + (a.extended hs).passed = offset + raw.length + a.passed := by
    simp [Account.extended, Account.passed, Nat.add_assoc]
  rcases outcome with e | scan
  · rw [Except.map, Account.Explains, hpassed]
    exact h
  · rw [Except.map, Account.Explains, hpassed]
    obtain ⟨hrest, htokens, hstop⟩ := h
    exact ⟨hrest, by rw [htokens]; rfl, hstop⟩

theorem prefix_of_startsComment {c : Char} {rest : List Char} (h : startsComment c rest) :
    ['/', '/'] <+: c :: rest := by
  simp only [startsComment, Bool.and_eq_true, beq_iff_eq] at h
  obtain ⟨rfl, hrest⟩ := h
  obtain ⟨more, rfl⟩ := List.head?_eq_some_iff.1 hrest
  exact ⟨more, rfl⟩

/-- **The lexer stops where an account of the text does**, by induction on its steps. -/
theorem exists_explains (offset : Nat) (text : List Char) :
    ∃ a : Account text, a.Explains offset (scanFrom (offset + 1) text) := by
  generalize hcolumn : offset + 1 = column
  fun_induction scanFrom column text generalizing offset with subst hcolumn
  | case1 => exact ⟨.stopped [], .inl rfl, rfl, rfl⟩
  | case2 _ c rest hc ih =>
    obtain ⟨a, ha⟩ := ih (offset + 1) rfl
    exact ⟨a.spaced hc, ha.spaced hc⟩
  | case3 _ c rest _ hc =>
    exact ⟨.stopped (c :: rest), .inr (prefix_of_startsComment hc), rfl, rfl⟩
  | case4 _ c rest _ _ e hcut => exact ⟨.stopped (c :: rest), pointsAt_of_cut hcut⟩
  | case5 _ c rest _ _ found hcut _ e hscan ih =>
    obtain ⟨a, ha⟩ := ih (offset + found.raw.length) (by omega)
    rw [← cut_append hcut]
    rw [hscan] at ha
    exact ⟨a.extended (stands_of_cut hcut), ha.extended (stands_of_cut hcut)⟩
  | case6 _ c rest _ _ found hcut _ scan hscan ih =>
    obtain ⟨a, ha⟩ := ih (offset + found.raw.length) (by omega)
    rw [← cut_append hcut]
    rw [hscan] at ha
    exact ⟨a.extended (stands_of_cut hcut), ha.extended (stands_of_cut hcut)⟩

/-- A failure that points at something has a column in the text. -/
theorem LexError.PointsAt.column_eq {e : LexError} (h : e.PointsAt offset text)
    (he : e ≠ .unreadableNumber) : e.column = offset + 1 ∧ text ≠ [] := by
  cases e with
  | unexpected c column =>
    obtain ⟨hcolumn, hc, -⟩ := h
    exact ⟨hcolumn, by rintro rfl; cases hc⟩
  | unterminated column =>
    obtain ⟨hcolumn, quote, rest, rfl, -⟩ := h
    exact ⟨hcolumn, List.cons_ne_nil _ _⟩
  | unreadableNumber => exact absurd rfl he

/-- **The lexer accounts for every character.** A text is stretches, spacing and a rest. If the lexer
is done then the rest is empty or a comment, the tokens are those of the stretches, and the column at
which they stop is that of the rest. If it fails then the failure points at the rest, and its column
is in the text unless it is the failure of a number, which has none. -/
theorem scan_accounts (text : List Char) :
    (∃ a : Account text, a.Explains 0 (scan text)) ∧
      ∀ e, scan text = .error e → e ≠ .unreadableNumber →
        1 ≤ e.column ∧ e.column ≤ text.length := by
  obtain ⟨a, ha⟩ := exists_explains 0 text
  refine ⟨⟨a, ha⟩, fun e he hne => ?_⟩
  rw [← scan, he] at ha
  obtain ⟨hcolumn, hrest⟩ := ha.column_eq hne
  have hlength : a.passed + a.rest.length = text.length := by
    rw [Account.passed, ← List.length_append, a.whole]
  have := List.length_pos_iff.2 hrest
  omega

end ChartScript.Syntax
