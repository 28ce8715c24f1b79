/-!
# Escapes in string literals

A string literal stands between two quotes of one kind. Inside it a backslash protects the character
behind it: a quote, a backslash, or one of the letters for a line break and a tab. A backslash before
any other character stands for itself, and so does one at the end.

`unescape` reads the inside of a literal, `escape` writes it for double quotes, and `stringBody?`
finds where a literal ends. The three go over the text in the same steps, a backslash with the
character behind it at a time, which is why `unescape_escape` and `stringBody?_escape` hold.
-/

namespace ChartScript.Syntax

/-- What a backslash and a character stand for. -/
def unescapePair (c : Char) : List Char :=
  if c = 'n' then ['\n']
  else if c = 't' then ['\t']
  else if c = '"' || c = '\'' || c = '\\' then [c]
  else ['\\', c]

/-- The text that the inside of a literal stands for. -/
def unescape : List Char → List Char
  | '\\' :: c :: rest => unescapePair c ++ unescape rest
  | c :: rest => c :: unescape rest
  | [] => []

/-- One character inside a literal between double quotes. -/
def escapeChar (c : Char) : List Char :=
  if c = '\n' then ['\\', 'n']
  else if c = '\t' then ['\\', 't']
  else if c = '"' || c = '\\' then ['\\', c]
  else [c]

/-- The inside of a literal between double quotes. -/
def escape (text : List Char) : List Char := text.flatMap escapeChar

/-- The literal between double quotes that stands for a text. -/
def stringLiteral (text : List Char) : List Char := '"' :: escape text ++ ['"']

/-- Finds the closing quote: gives the inside of the literal and what follows the quote. -/
def stringBody? (quote : Char) : List Char → Option (List Char × List Char)
  | [] => none
  | '\\' :: c :: rest =>
    (stringBody? quote rest).map fun (body, after) => ('\\' :: c :: body, after)
  | c :: rest =>
    if c = quote then some ([], rest)
    else (stringBody? quote rest).map fun (body, after) => (c :: body, after)

/-- A literal is its inside, the closing quote and what follows. -/
theorem stringBody?_append {quote : Char} {text body rest : List Char}
    (h : stringBody? quote text = some (body, rest)) : body ++ quote :: rest = text := by
  fun_induction stringBody? quote text generalizing body rest with
  | case1 => cases h
  | case2 c rest' ih =>
    obtain ⟨⟨b, r⟩, hr, heq⟩ := Option.map_eq_some_iff.1 h
    obtain ⟨rfl, rfl⟩ := Prod.mk.inj heq
    simp [ih hr]
  | case3 rest' =>
    obtain ⟨rfl, rfl⟩ := Prod.mk.inj (Option.some.inj h)
    rfl
  | case4 c rest' _ _ ih =>
    obtain ⟨⟨b, r⟩, hr, heq⟩ := Option.map_eq_some_iff.1 h
    obtain ⟨rfl, rfl⟩ := Prod.mk.inj heq
    simp [ih hr]

/-- Nothing but the character itself is left of an escaped character. -/
theorem unescape_escapeChar_append (c : Char) (rest : List Char) :
    unescape (escapeChar c ++ rest) = c :: unescape rest := by
  simp only [escapeChar]
  split
  · simp_all [unescape, unescapePair]
  · split
    · simp_all [unescape, unescapePair]
    · split
      · rename_i protect
        simp only [Bool.or_eq_true, decide_eq_true_eq] at protect
        rcases protect with rfl | rfl <;> simp [unescape, unescapePair]
      · rename_i protect
        simp only [Bool.or_eq_true, decide_eq_true_eq, not_or] at protect
        rw [List.singleton_append, unescape]
        intro _ _ h
        exact absurd h protect.2

/-- Escaping loses nothing. -/
@[simp] theorem unescape_escape (text : List Char) : unescape (escape text) = text := by
  induction text with
  | nil => rfl
  | cons c text ih =>
    rw [escape, List.flatMap_cons, unescape_escapeChar_append, ← escape, ih]

/-- No escaped character closes a literal. -/
theorem stringBody?_escapeChar_append (c : Char) (rest : List Char) :
    stringBody? '"' (escapeChar c ++ rest) =
      (stringBody? '"' rest).map fun (body, after) => (escapeChar c ++ body, after) := by
  simp only [escapeChar]
  split
  · simp [stringBody?]
  · split
    · simp [stringBody?]
    · split
      · simp [stringBody?]
      · rename_i protect
        simp only [Bool.or_eq_true, decide_eq_true_eq, not_or] at protect
        rw [List.singleton_append, stringBody?, if_neg protect.1]
        · rfl
        · intro _ _ h
          exact absurd h protect.2

/-- A literal ends where its text does. -/
theorem stringBody?_escape (text rest : List Char) :
    stringBody? '"' (escape text ++ '"' :: rest) = some (escape text, rest) := by
  induction text with
  | nil => rfl
  | cons c text ih =>
    rw [escape, List.flatMap_cons, List.append_assoc, stringBody?_escapeChar_append, ← escape, ih]
    rfl

end ChartScript.Syntax
