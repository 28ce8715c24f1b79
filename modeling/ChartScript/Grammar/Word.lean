import ChartScript.Syntax.Token

/-!
# Words of the grammar

The grammar reads a source as a whole. Its words carry the span of text they take up, and a line
break is a word of its own. Spaces, tabs, form feeds and carriage returns are passed over, and so is
a comment from its two slashes, or from a slash and a star, to the end of the line.

At the start of a statement the word `indicator` takes the rest of its line. Where a character starts
no word the list ends with a *stray* word, which the grammar accepts nowhere; that is how a source is
refused at the first place that makes no sense, whether the reason lies in a word or in its place.
-/

namespace ChartScript.Grammar

open ChartScript.Syntax (Mark stringBody?)
open ChartScript.Text (isDecimalDigit isWordChar)

/-- A place in a source; the first line and the first column are 1. -/
structure Position where
  /-- The line. -/
  line : Nat
  /-- The column. -/
  column : Nat
deriving DecidableEq, Inhabited

/-- The place behind `count` characters on the same line. -/
def Position.right (p : Position) (count : Nat) : Position := { p with column := p.column + count }

/-- The place at the start of the next line. -/
def Position.nextLine (p : Position) : Position where
  line := p.line + 1
  column := 1

/-- A stretch of a source: from its first character to just behind its last. -/
structure Span where
  /-- The place of the first character. -/
  start : Position
  /-- The place just behind the last character. -/
  stop : Position
deriving DecidableEq, Inhabited

/-- The stretch from the start of one to the end of another. -/
def Span.to (first last : Span) : Span where
  start := first.start
  stop := last.stop

/-- What a word says. -/
inductive Saying where
  /-- An indicator line. -/
  | indicator (text : List Char)
  /-- A name of one segment. -/
  | name (text : List Char)
  /-- A name of several segments. -/
  | dotted (text : List Char)
  /-- A number: the digits before the point and, if there is one, those behind it. -/
  | number (whole : List Char) (fraction : Option (List Char))
  /-- A string, without its quotes and with its escapes. -/
  | string (body : List Char)
  /-- A mark. -/
  | mark (m : Mark)
  /-- A line break. -/
  | newline
  /-- The place where a character starts no word. -/
  | stray

/-- A word and the stretch it takes up. -/
structure Word where
  /-- What the word says. -/
  saying : Saying
  /-- The stretch of the source. -/
  span : Span

/-! ### Single words -/

/-- Whether a character is passed over between words. -/
def isPadding (c : Char) : Bool := c == ' ' || c == '\t' || c == '\x0c' || c == '\r'

/-- Whether a character and the text behind it start a comment. -/
def startsComment (c : Char) (rest : List Char) : Bool :=
  c == '/' && rest.head?.any fun d => d == '/' || d == '*'

/-- Whether a character can start a segment of a name. -/
def isNameStart (c : Char) : Bool := c.isAlpha || c == '_'

/-- Whether a character can stand inside a segment of a name. -/
def isNameChar (c : Char) : Bool := c.isAlphanum || c == '_'

/-- Whether a character does not end a line. -/
def isInLine (c : Char) : Bool := c != '\n'

/-- Splits off the rest of a name; the flag says whether it goes over a point. -/
def nameRest : List Char → Bool × List Char × List Char
  | '.' :: c :: rest =>
    if isNameStart c then
      let (_, name, after) := nameRest rest
      (true, '.' :: c :: name, after)
    else (false, [], '.' :: c :: rest)
  | c :: rest =>
    if isNameChar c then
      let (dotted, name, after) := nameRest rest
      (dotted, c :: name, after)
    else (false, [], c :: rest)
  | [] => (false, [], [])

/-- Splits off the fraction behind the digits of a number. -/
def fractionRest : List Char → Option (List Char) × List Char
  | '.' :: c :: rest =>
    if isDecimalDigit c then
      (some (c :: rest.takeWhile isDecimalDigit), rest.dropWhile isDecimalDigit)
    else (none, '.' :: c :: rest)
  | rest => (none, rest)

/-- The word that starts an indicator line. -/
def indicatorWord : List Char := ['i', 'n', 'd', 'i', 'c', 'a', 't', 'o', 'r']

/-- The indicator line at the start of a text. -/
def indicatorLine? (text : List Char) : Option (List Char × List Char) :=
  if indicatorWord.isPrefixOf text
      && !((text.drop indicatorWord.length).head?.any isWordChar) then
    some (text.takeWhile isInLine, text.dropWhile isInLine)
  else none

/-- The word that starts with the character `c`: what it says, the number of its characters and the
rest of the text. There is none where the character starts no word. -/
def word? (atStart : Bool) (c : Char) (rest : List Char) : Option (Saying × Nat × List Char) :=
  let measured (saying : Saying) (after : List Char) :=
    some (saying, rest.length + 1 - after.length, after)
  match (if atStart then indicatorLine? (c :: rest) else none) with
  | some (line, after) => measured (.indicator line) after
  | none =>
    if isNameStart c then
      let (dotted, name, after) := nameRest rest
      measured (if dotted then .dotted (c :: name) else .name (c :: name)) after
    else if isDecimalDigit c then
      let (fraction, after) := fractionRest (rest.dropWhile isDecimalDigit)
      measured (.number (c :: rest.takeWhile isDecimalDigit) fraction) after
    else if c = '.' then
      match fractionRest ('.' :: rest) with
      | (some fraction, after) => measured (.number [] (some fraction)) after
      | _ => none
    else if c = '"' || c = '\'' then
      match stringBody? c rest with
      | some (body, after) => if body.all isInLine then measured (.string body) after else none
      | none => none
    else
      match Mark.ofChar? c with
      | some m => measured (.mark m) rest
      | none => none

theorem nameRest_length (text : List Char) : (nameRest text).2.2.length ≤ text.length := by
  fun_induction nameRest text <;> simp_all <;> omega

theorem fractionRest_length (text : List Char) : (fractionRest text).2.length ≤ text.length := by
  fun_cases fractionRest text
  · have := (List.dropWhile_sublist isDecimalDigit (l := ‹List Char›)).length_le
    simp
    omega
  · simp
  · simp

/-- A fraction takes up the point and a digit. -/
theorem fractionRest_length_lt {text fraction after : List Char}
    (h : fractionRest text = (some fraction, after)) : after.length < text.length := by
  unfold fractionRest at h
  split at h
  · split at h
    · cases h
      have := (List.dropWhile_sublist isDecimalDigit (l := ‹List Char›)).length_le
      simp
      omega
    · cases h
  · cases h

theorem stringBody?_length {quote : Char} {text body after : List Char}
    (h : stringBody? quote text = some (body, after)) : after.length < text.length := by
  have := congrArg List.length (Syntax.stringBody?_append h)
  simp at this
  omega

theorem indicatorLine?_length {text line after : List Char}
    (h : indicatorLine? text = some (line, after)) : after.length < text.length := by
  simp only [indicatorLine?] at h
  split at h
  · rename_i starts
    cases h
    cases text with
    | nil => simp [indicatorWord] at starts
    | cons c rest =>
      rw [Bool.and_eq_true] at starts
      have hc : isInLine c = true := by
        have hi := starts.1
        rw [indicatorWord, List.isPrefixOf, Bool.and_eq_true, beq_iff_eq] at hi
        simp [← hi.1, isInLine]
      rw [List.dropWhile_cons_of_pos hc]
      have := (List.dropWhile_sublist isInLine (l := rest)).length_le
      simp
      omega
  · cases h

/-- What follows a word is shorter than the text. -/
theorem word?_length {atStart : Bool} {c : Char} {rest after : List Char} {saying : Saying}
    {count : Nat} (h : word? atStart c rest = some (saying, count, after)) :
    after.length ≤ rest.length := by
  simp only [word?] at h
  split at h
  · rename_i line after' hi
    cases h
    split at hi
    · have := indicatorLine?_length hi
      simp at this
      omega
    · cases hi
  · split at h
    · cases h
      exact nameRest_length rest
    · split at h
      · cases h
        have := fractionRest_length (rest.dropWhile isDecimalDigit)
        have := (List.dropWhile_sublist isDecimalDigit (l := rest)).length_le
        omega
      · split at h
        · split at h
          · rename_i hf
            cases h
            have := fractionRest_length_lt hf
            simp at this
            omega
          · cases h
        · split at h
          · split at h
            · rename_i hb
              split at h
              · cases h
                have := stringBody?_length hb
                omega
              · cases h
            · cases h
          · split at h
            · cases h; simp
            · cases h

/-! ### The whole source -/

/-- The words of a text that starts at a given place; the flag says whether a statement may start
there. -/
def wordsFrom (place : Position) (atStart : Bool) (text : List Char) : List Word :=
  match text with
  | [] => []
  | c :: rest =>
    if isPadding c then wordsFrom (place.right 1) atStart rest
    else if startsComment c rest then
      have := (List.dropWhile_sublist isInLine (l := rest)).length_le
      wordsFrom (place.right (1 + (rest.takeWhile isInLine).length)) atStart
        (rest.dropWhile isInLine)
    else if c = '\n' then
      ⟨.newline, place, place.nextLine⟩ :: wordsFrom place.nextLine true rest
    else
      match h : word? atStart c rest with
      | none => [⟨.stray, place, place.right 1⟩]
      | some (saying, count, after) =>
        have := word?_length h
        ⟨saying, place, place.right count⟩ :: wordsFrom (place.right count) false after
termination_by text.length
decreasing_by all_goals (simp only [List.length_cons]; omega)

/-- The words of a source. -/
def words (source : List Char) : List Word := wordsFrom ⟨1, 1⟩ true source

end ChartScript.Grammar
