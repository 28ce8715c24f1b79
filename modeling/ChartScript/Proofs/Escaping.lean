import ChartScript.Data.Json
import Mathlib

/-!
# Texts between quotes

A text is put between quotes in two ways, in a unit and in JSON, and each has its own escapes. Both
ways give the text back. The argument is the same in both: a reader that stands in front of what one
character was written as reads that character and stands behind it
(`ChartScript.Text.unquoteChar?_quotedChar`, `ChartScript.Json.stringBody?_stringChar`), and nothing
that a character is written as starts with the closing quote.

JSON knows characters beyond the basic plane only as two halves. Since no character is half of
another one, joining the halves again is unambiguous (`ChartScript.Json.joinPairs_units`).
-/

namespace ChartScript.Text

/-! ### Hexadecimal digits -/

/-- A digit has its value. -/
theorem hexDigitValue?_hexDigit : ∀ n < 16, hexDigitValue? (hexDigit n) = some n := by decide

/-- One more digit at the end. -/
theorem hexValue?_concat (digits : List Char) (c : Char) :
    hexValue? (digits ++ [c]) =
      (hexValue? digits).bind fun n => (hexDigitValue? c).map fun d => 16 * n + d := by
  rw [hexValue?, hexValue?, List.foldl_append]
  simp only [List.foldl_cons, List.foldl_nil]
  rcases List.foldl _ (some 0) digits with _ | n
  · rfl
  · rcases hexDigitValue? c with _ | d <;> rfl

/-- The digits of a number stand for it. -/
theorem hexValue?_hexText (width : Nat) {n : Nat} (h : n < 16 ^ width) :
    hexValue? (hexText width n) = some n := by
  induction width generalizing n with
  | zero =>
    obtain rfl : n = 0 := by simpa using h
    rfl
  | succ width ih =>
    have hfirst : n / 16 < 16 ^ width := by
      rw [Nat.pow_succ] at h
      omega
    rw [hexText, hexValue?_concat, ih hfirst, Option.bind_some,
      hexDigitValue?_hexDigit _ (Nat.mod_lt _ (by decide)), Option.map_some, Nat.div_add_mod]

/-- **A number is read from as many digits as it was written with.** -/
theorem readHex?_hexText {width n : Nat} (h : n < 16 ^ width) (rest : List Char) :
    readHex? width (hexText width n ++ rest) = some (n, rest) := by
  have hlen := length_hexText width n
  rw [readHex?, List.take_left' hlen, List.drop_left' hlen]
  simp [hlen, hexValue?_hexText width h]

/-! ### Quoted text -/

/-- One of the two quotes. -/
def IsQuoteMark (c : Char) : Prop := c = '\'' ∨ c = '"'

theorem isQuoteMark_quoteFor (text : List Char) : IsQuoteMark (quoteFor text) := by
  rw [quoteFor]
  split
  · exact .inr rfl
  · exact .inl rfl

/-- A character stands for itself where the reader knows no escape. -/
theorem unquoteChar?_self {quote c : Char} (hquote : c ≠ quote) (hslash : c ≠ '\\') (hbreak : c ≠ '\n')
    (rest : List Char) : unquoteChar? quote (c :: rest) = some (c, rest) := by
  rw [unquoteChar?.eq_def]
  split <;> rename_i heq <;> first
    | (cases heq; exact absurd rfl hslash)
    | (cases heq; simp [hquote, hslash, hbreak])
    | cases heq

/-- Every character has a code point that eight digits can name. -/
theorem toNat_lt (c : Char) : c.toNat < 0x110000 := by
  have := c.valid
  simp only [UInt32.isValidChar, Nat.isValidChar] at this
  have heq : c.toNat = c.val.toNat := rfl
  omega

/-- **What a character is written as is read as the character.** -/
theorem unquoteChar?_quotedChar {quote : Char} (hq : IsQuoteMark quote) (c : Char)
    (rest : List Char) : unquoteChar? quote (quotedChar quote c ++ rest) = some (c, rest) := by
  have hbound := toNat_lt c
  rw [quotedChar]
  split
  · -- a quote or a backslash is written behind a backslash
    rename_i hc
    have hc' : c = '\'' ∨ c = '"' ∨ c = '\\' := by
      simp only [Bool.or_eq_true, decide_eq_true_eq] at hc
      rcases hq with rfl | rfl
      · exact hc.imp_right .inr
      · exact .inr hc
    rcases hc' with rfl | rfl | rfl <;> simp [unquoteChar?]
  rename_i hplain
  simp only [Bool.or_eq_true, decide_eq_true_eq, not_or] at hplain
  split
  · rename_i hc
    rw [hc]
    rfl
  rename_i hbreak
  split
  · rename_i hc
    rw [hc]
    rfl
  split
  · rename_i hc
    rw [hc]
    rfl
  split
  · exact unquoteChar?_self hplain.1 hplain.2 hbreak rest
  split
  · rename_i hsmall
    rw [List.cons_append, List.cons_append, unquoteChar?, readHex?_hexText (by omega)]
    simp
  split
  · rename_i hsmall
    rw [List.cons_append, List.cons_append, unquoteChar?, readHex?_hexText (by omega)]
    simp
  · rw [List.cons_append, List.cons_append, unquoteChar?, readHex?_hexText (by omega)]
    simp

/-- What a character is written as does not start with the closing quote. -/
theorem quotedChar_eq_cons {quote : Char} (hq : IsQuoteMark quote) (c : Char) :
    ∃ d rest, quotedChar quote c = d :: rest ∧ d ≠ quote := by
  have hslash : '\\' ≠ quote := by rcases hq with rfl | rfl <;> decide
  rw [quotedChar]
  split
  · exact ⟨_, _, rfl, hslash⟩
  rename_i hplain
  simp only [Bool.or_eq_true, decide_eq_true_eq, not_or] at hplain
  repeat' split
  all_goals first
    | exact ⟨_, _, rfl, hslash⟩
    | exact ⟨_, _, rfl, hplain.1⟩

theorem unquoteBody?_flatMap {quote : Char} (hq : IsQuoteMark quote) (text rest : List Char) :
    unquoteBody? quote (text.flatMap (quotedChar quote) ++ quote :: rest) = some (text, rest) := by
  induction text with
  | nil =>
    rw [List.flatMap_nil, List.nil_append, unquoteBody?, if_pos rfl]
  | cons c text ih =>
    obtain ⟨d, more, heq, hd⟩ := quotedChar_eq_cons hq c
    have hchar := unquoteChar?_quotedChar hq c (text.flatMap (quotedChar quote) ++ quote :: rest)
    rw [List.flatMap_cons, List.append_assoc]
    rw [heq, List.cons_append] at hchar ⊢
    rw [unquoteBody?, if_neg hd]
    split
    · rename_i hnone
      rw [hchar] at hnone
      cases hnone
    · rename_i e more' hsome
      rw [hchar] at hsome
      cases hsome
      rw [ih]
      rfl

/-- **Quoted text gives the text back.** -/
theorem unquote?_quoted (text rest : List Char) :
    unquote? (quoted text ++ rest) = some (text, rest) := by
  have hq := isQuoteMark_quoteFor text
  have hbody := unquoteBody?_flatMap hq text rest
  have heq : quoted text ++ rest =
      quoteFor text :: (text.flatMap (quotedChar (quoteFor text)) ++ quoteFor text :: rest) := by
    simp [quoted]
  rw [heq]
  rcases hq with h | h
  · rw [h] at hbody ⊢
    exact hbody
  · rw [h] at hbody ⊢
    exact hbody

end ChartScript.Text

namespace ChartScript.Json

open ChartScript.Text (readHex?_hexText)

/-! ### JSON strings -/

/-- The UTF-16 units that a character is read as. -/
def units (c : Char) : List Nat :=
  if c.toNat < 0x10000 then [c.toNat]
  else [0xD800 + (c.toNat - 0x10000) / 0x400, 0xDC00 + (c.toNat - 0x10000) % 0x400]

/-- A character is no half of another one. -/
theorem not_half (c : Char) : c.toNat < 0xD800 ∨ 0xE000 ≤ c.toNat := by
  have := c.valid
  simp only [UInt32.isValidChar, Nat.isValidChar] at this
  have heq : c.toNat = c.val.toNat := rfl
  omega

/-- A unit that is no first half is a character. -/
theorem joinPairs_cons {unit : Nat} (h : unit < 0xD800 ∨ 0xDC00 ≤ unit) (rest : List Nat) :
    joinPairs (unit :: rest) = Char.ofNat unit :: joinPairs rest := by
  cases rest with
  | nil => rfl
  | cons low rest =>
    rw [joinPairs, if_neg]
    simp only [Bool.and_eq_true, decide_eq_true_eq]
    omega

/-- **Halves are joined to the characters that they were made from.** -/
theorem joinPairs_units (text : List Char) : joinPairs (text.flatMap units) = text := by
  induction text with
  | nil => rfl
  | cons c text ih =>
    have hbound := Text.toNat_lt c
    rw [List.flatMap_cons, units]
    split
    · rw [List.cons_append, List.nil_append, joinPairs_cons (by have := not_half c; omega), ih,
        Char.ofNat_toNat]
    · rename_i hlarge
      have hcode : 0x10000 + (0xD800 + (c.toNat - 0x10000) / 0x400 - 0xD800) * 0x400 +
          (0xDC00 + (c.toNat - 0x10000) % 0x400 - 0xDC00) = c.toNat := by omega
      rw [List.cons_append, List.cons_append, List.nil_append, joinPairs, if_pos, ih, hcode,
        Char.ofNat_toNat]
      simp only [Bool.and_eq_true, decide_eq_true_eq]
      omega

/-- The escape of a unit is read as the unit. -/
theorem stringUnit?_unitEscape {unit : Nat} (h : unit < 0x10000) (rest : List Char) :
    stringUnit? (unitEscape unit ++ rest) = some (unit, rest) := by
  rw [unitEscape, List.cons_append, List.cons_append, stringUnit?]
  exact readHex?_hexText (by omega) rest

/-- Reading a string goes on behind a unit. -/
theorem stringBody?_of_unit {text more : List Char} {unit : Nat} {c : Char} {tail : List Char}
    (htext : text = c :: tail) (hc : c ≠ '"') (h : stringUnit? text = some (unit, more)) :
    stringBody? text = (stringBody? more).map fun (units, rest) => (unit :: units, rest) := by
  subst htext
  rw [stringBody?.eq_def]
  split
  · rename_i heq
    cases heq
  · rename_i heq
    cases heq
    exact absurd rfl hc
  · rename_i heq
    cases heq
    split
    · rename_i hnone
      rw [h] at hnone
      cases hnone
    · rename_i hsome
      rw [h] at hsome
      cases hsome
      rfl

/-- **What a character is written as is read as its units.** -/
theorem stringBody?_stringChar (c : Char) (rest : List Char) :
    stringBody? (stringChar c ++ rest) =
      (stringBody? rest).map fun (us, rest) => (units c ++ us, rest) := by
  have hescape : ∀ unit < 0x10000, ∀ rest, stringBody? (unitEscape unit ++ rest) =
      (stringBody? rest).map fun (units, rest) => (unit :: units, rest) :=
    fun unit hunit rest => stringBody?_of_unit rfl (by decide) (stringUnit?_unitEscape hunit rest)
  have hunit : c.toNat < 0x10000 → units c = [c.toNat] := fun h => by rw [units, if_pos h]
  have hbound := Text.toNat_lt c
  rw [stringChar]
  split
  · -- a quote or a backslash is written behind a backslash
    rename_i hc
    have hc' : c = '"' ∨ c = '\\' := by simpa using hc
    rcases hc' with rfl | rfl <;> exact stringBody?_of_unit rfl (by decide) rfl
  rename_i hplain
  simp only [Bool.or_eq_true, decide_eq_true_eq, not_or] at hplain
  split
  · rename_i hc
    subst hc
    exact stringBody?_of_unit rfl (by decide) rfl
  split
  · rename_i hc
    subst hc
    exact stringBody?_of_unit rfl (by decide) rfl
  split
  · rename_i hc
    subst hc
    exact stringBody?_of_unit rfl (by decide) rfl
  split
  · rename_i hc
    rw [hunit (by omega), hc]
    exact stringBody?_of_unit rfl (by decide) rfl
  split
  · rename_i hc
    rw [hunit (by omega), hc]
    exact stringBody?_of_unit rfl (by decide) rfl
  split
  · rename_i hc
    simp only [Bool.and_eq_true, decide_eq_true_eq] at hc
    rw [hunit (by omega)]
    refine stringBody?_of_unit rfl hplain.1 ?_
    rw [List.cons_append, List.nil_append, stringUnit?.eq_def]
    split <;> rename_i heq <;> first
      | (cases heq; exact absurd rfl hplain.2)
      | (cases heq; simp [hplain.1, hplain.2, hc.1])
      | cases heq
  split
  · rename_i hsmall
    rw [hunit hsmall, hescape _ hsmall]
    rfl
  · rename_i hlarge
    rw [units, if_neg hlarge, List.append_assoc, hescape _ (by omega), hescape _ (by omega),
      Option.map_map]
    rfl

/-- **A JSON string gives the text back.** -/
theorem stringBody?_flatMap (text rest : List Char) :
    stringBody? (text.flatMap stringChar ++ '"' :: rest) = some (text.flatMap units, rest) := by
  induction text with
  | nil => rw [List.flatMap_nil, List.nil_append, stringBody?, List.flatMap_nil]
  | cons c text ih =>
    rw [List.flatMap_cons, List.append_assoc, stringBody?_stringChar, ih, List.flatMap_cons]
    rfl

end ChartScript.Json
