import ChartScript.Grammar.Word
import ChartScript.Text.Blank
import Mathlib

/-!
# Classes of characters

What the two ways of cutting a text have to know about characters. The classes of the line reader go
over all of Unicode, those of the grammar are mostly the basic Latin block, and on that block the two
agree. A blank is in none of the classes that words are made of.

A statement about the basic Latin block, or about blanks, is a statement about finitely many code
points and is checked one by one.
-/

namespace ChartScript.Text

/-- Whether a character is of the basic Latin block. -/
def isBasic (c : Char) : Bool := c.toNat < 128

/-! ### The basic Latin block -/

/-- What holds of the first code points holds of the characters of the block. -/
theorem forall_isBasic {P : Char → Prop} (h : ∀ n < 128, P (Char.ofNat n)) {c : Char}
    (hc : isBasic c) : P c := by
  have hn := h c.toNat (by simpa [isBasic] using hc)
  rwa [Char.ofNat_toNat] at hn

theorem isBasic_of_isAlphanum {c : Char} (h : c.isAlphanum) : isBasic c := by
  simp only [Char.isAlphanum, Char.isAlpha, Char.isUpper, Char.isLower, Char.isDigit,
    Bool.or_eq_true, Bool.and_eq_true, decide_eq_true_eq, UInt32.le_iff_toNat_le, ge_iff_le] at h
  have hc : c.val.toNat = c.toNat := rfl
  simp only [isBasic, decide_eq_true_eq]
  have hZ : 'Z'.val.toNat = 90 := rfl
  have hz : 'z'.val.toNat = 122 := rfl
  have h9 : '9'.val.toNat = 57 := rfl
  omega

/-- A table without code points of the block. -/
theorem inRanges_eq_false {table : Array (Nat × Nat)} (ht : ∀ range ∈ table.toList, 128 ≤ range.1)
    {c : Char} (hc : isBasic c) : inRanges table c.toNat = false := by
  rw [Bool.eq_false_iff]
  intro h
  obtain ⟨range, hr, hl, -⟩ := inRanges_iff.1 h
  have := ht range (Array.mem_toList_iff.2 hr)
  simp only [isBasic, decide_eq_true_eq] at hc
  omega

theorem isLetter_eq_isAlpha {c : Char} (h : isBasic c) : isLetter c = c.isAlpha := by
  simp only [isBasic, decide_eq_true_eq] at h
  simp [isLetter, h]

theorem isDecimalDigit_eq_isDigit {c : Char} (h : isBasic c) : isDecimalDigit c = c.isDigit := by
  simp only [isBasic, decide_eq_true_eq] at h
  rw [isDecimalDigit, digitValue?, if_pos h]
  split <;> simp_all

theorem digitSigns_not_basic : ∀ range ∈ digitSignRanges.toList, 128 ≤ range.1 := by
  decide

theorem numberSigns_not_basic : ∀ range ∈ numberSignRanges.toList, 128 ≤ range.1 := by
  decide

theorem isDigit_eq_isDecimalDigit {c : Char} (h : isBasic c) : isDigit c = isDecimalDigit c := by
  rw [isDigit, inRanges_eq_false digitSigns_not_basic h, Bool.or_false]

theorem isDigit_eq_isDigit {c : Char} (h : isBasic c) : isDigit c = c.isDigit := by
  rw [isDigit_eq_isDecimalDigit h, isDecimalDigit_eq_isDigit h]

theorem isWordChar_eq_isNameChar {c : Char} (h : isBasic c) :
    isWordChar c = Grammar.isNameChar c := by
  rw [isWordChar, isAlphanumeric, isLetter_eq_isAlpha h, isDigit_eq_isDecimalDigit h,
    isDecimalDigit_eq_isDigit h, inRanges_eq_false numberSigns_not_basic h, Bool.or_false]
  rfl

theorem isBasic_of_isNameChar {c : Char} (h : Grammar.isNameChar c) : isBasic c := by
  simp only [Grammar.isNameChar, Bool.or_eq_true, beq_iff_eq] at h
  rcases h with h | rfl
  · exact isBasic_of_isAlphanum h
  · rfl

theorem isNameChar_of_isNameStart {c : Char} (h : Grammar.isNameStart c) :
    Grammar.isNameChar c := by
  simp only [Grammar.isNameStart, Grammar.isNameChar, Bool.or_eq_true] at h ⊢
  exact h.imp_left fun ha => by simp [Char.isAlphanum, ha]

/-- The classes of the line reader hold those of the grammar. -/
theorem isWordChar_of_isNameChar {c : Char} (h : Grammar.isNameChar c) : isWordChar c := by
  rwa [isWordChar_eq_isNameChar (isBasic_of_isNameChar h)]

theorem isNameStart_of_isNameStart {c : Char} (h : Grammar.isNameStart c) :
    Syntax.isNameStart c := by
  have hb := isBasic_of_isNameChar (isNameChar_of_isNameStart h)
  rwa [Syntax.isNameStart, isLetter_eq_isAlpha hb]

theorem isDigit_of_isDecimalDigit {c : Char} (h : isDecimalDigit c) : isDigit c := by
  rw [isDigit, h, Bool.true_or]

theorem isDigit_of_basic {c : Char} (h : c.isDigit) : isDigit c := by
  rwa [isDigit_eq_isDigit (isBasic_of_isAlphanum (by simp [Char.isAlphanum, h]))]

/-- A text of name characters is one of word characters. -/
theorem forall_isWordChar {text : List Char} (h : text.all Grammar.isNameChar) :
    ∀ c ∈ text, isWordChar c :=
  fun c hc => isWordChar_of_isNameChar (List.all_eq_true.1 h c hc)

/-- A word does not go over a point. -/
theorem not_isWordChar_point : isWordChar '.' = false :=
  (isWordChar_eq_isNameChar (by decide)).trans (by decide)

theorem ne_point_of_isWordChar {c : Char} (h : isWordChar c) : c ≠ '.' := by
  rintro rfl
  rw [not_isWordChar_point] at h
  cases h

/-! ### Blanks -/

/-- What holds of the characters with the code points of blanks holds of blanks. -/
theorem forall_isBlank {P : Char → Prop} (h : ∀ n ∈ blankCodes.toList, P (Char.ofNat n)) {c : Char}
    (hc : isBlank c) : P c := by
  have hm : c.toNat ∈ blankCodes.toList := by
    simpa [isBlank] using hc
  have hn := h c.toNat hm
  rwa [Char.ofNat_toNat] at hn

theorem isNameStart_of_isBlank {c : Char} (h : isBlank c) : Grammar.isNameStart c = false :=
  forall_isBlank (P := fun c => Grammar.isNameStart c = false) (by decide) h

theorem isNameChar_of_isBlank {c : Char} (h : isBlank c) : Grammar.isNameChar c = false :=
  forall_isBlank (P := fun c => Grammar.isNameChar c = false) (by decide) h

theorem ofChar?_of_isBlank {c : Char} (h : isBlank c) : Syntax.Mark.ofChar? c = none :=
  forall_isBlank (P := fun c => Syntax.Mark.ofChar? c = none) (by decide) h

/-- A table that holds no code point of a blank. -/
def HasNoBlank (table : Array (Nat × Nat)) : Prop :=
  ∀ n ∈ blankCodes.toList, ∀ range ∈ table.toList, n < range.1 ∨ range.2 < n

instance (table : Array (Nat × Nat)) : Decidable (HasNoBlank table) :=
  inferInstanceAs (Decidable (∀ n ∈ blankCodes.toList, ∀ range ∈ table.toList,
    n < range.1 ∨ range.2 < n))

theorem HasNoBlank.inRanges {table : Array (Nat × Nat)} (ht : HasNoBlank table) {c : Char}
    (hc : isBlank c) : inRanges table c.toNat = false := by
  rw [Bool.eq_false_iff]
  intro h
  obtain ⟨range, hr, hl, hu⟩ := inRanges_iff.1 h
  have := ht c.toNat (by simpa [isBlank] using hc) range (Array.mem_toList_iff.2 hr)
  omega

/-- No blank is a letter, a digit or a number sign: the tables of all Unicode, checked at once. -/
theorem hasNoBlank_tables :
    (HasNoBlank letterRanges ∧ HasNoBlank digitSignRanges ∧ HasNoBlank numberSignRanges) ∧
      ∀ n ∈ blankCodes.toList, isDecimalDigit (Char.ofNat n) = false := by
  decide +kernel

theorem isDecimalDigit_of_isBlank {c : Char} (h : isBlank c) : isDecimalDigit c = false :=
  forall_isBlank (P := fun c => isDecimalDigit c = false) hasNoBlank_tables.2 h

theorem isLetter_of_isBlank {c : Char} (h : isBlank c) : isLetter c = false := by
  rw [isLetter]
  split
  · exact forall_isBlank (P := fun c => c.isAlpha = false) (by decide) h
  · exact hasNoBlank_tables.1.1.inRanges h

theorem isWordChar_of_isBlank {c : Char} (h : isBlank c) : isWordChar c = false := by
  rw [isWordChar, isAlphanumeric, isLetter_of_isBlank h, isDigit, isDecimalDigit_of_isBlank h,
    hasNoBlank_tables.1.2.1.inRanges h, hasNoBlank_tables.1.2.2.inRanges h]
  exact forall_isBlank (P := fun c => (c == '_') = false) (by decide) h

theorem not_isDigit_of_not_isWordChar {c : Char} (h : isWordChar c = false) : isDigit c = false := by
  rw [Bool.eq_false_iff] at h ⊢
  exact fun hd => h (isWordChar_of_isDigit hd)

theorem not_isNameStart_of_not_isWordChar {c : Char} (h : isWordChar c = false) :
    Syntax.isNameStart c = false := by
  rw [Bool.eq_false_iff] at h ⊢
  intro hn
  simp only [Syntax.isNameStart, Bool.or_eq_true, beq_iff_eq] at hn
  rcases hn with hn | rfl
  · exact h (isWordChar_of_isLetter hn)
  · exact h isWordChar_underscore

/-- The visible characters of the basic Latin block are no blanks. -/
theorem not_isBlank {c : Char} (h : 32 < c.toNat ∧ c.toNat < 128) : ¬ isBlank c := by
  intro hb
  have hc : c.toNat ≤ 32 ∨ 128 ≤ c.toNat :=
    forall_isBlank (P := fun c => c.toNat ≤ 32 ∨ 128 ≤ c.toNat) (by decide) hb
  omega

theorem ne_of_isBlank {c d : Char} (h : isBlank c) (hd : 32 < d.toNat ∧ d.toNat < 128) : c ≠ d := by
  rintro rfl
  exact not_isBlank hd h

theorem isBlank_newline : isBlank '\n' := by
  simp [isBlank, blankCodes]

/-- What the grammar passes over are blanks. -/
theorem isBlank_of_isPadding {c : Char} (h : Grammar.isPadding c) : isBlank c := by
  simp only [Grammar.isPadding, Bool.or_eq_true, beq_iff_eq] at h
  rcases h with ((rfl | rfl) | rfl) | rfl <;> simp [isBlank, blankCodes]

/-! ### Rows of one class -/

section Rows

variable {p q : Char → Bool} {row rest : List Char}

/-- What is true of all characters of a text is true of a part of it. -/
theorem all_of_subset (hs : rest ⊆ row) (h : row.all p) : rest.all p :=
  List.all_eq_true.2 fun c hc => List.all_eq_true.1 h c (hs hc)

/-- A row of characters of one class goes up to the first character of another. -/
theorem takeWhile_append_stop (h : ∀ c ∈ row, p c) (hr : ∀ c ∈ rest.head?, p c = false) :
    (row ++ rest).takeWhile p = row ∧ (row ++ rest).dropWhile p = rest := by
  rw [List.takeWhile_append_of_pos h, List.dropWhile_append_of_pos h]
  rcases rest with _ | ⟨c, rest⟩
  · simp
  · have hc : ¬ p c := by simp [hr c rfl]
    rw [List.takeWhile_cons_of_neg hc, List.dropWhile_cons_of_neg hc, List.append_nil]
    exact ⟨rfl, rfl⟩

theorem dropWhile_stop (hr : ∀ c ∈ rest.head?, p c = false) : rest.dropWhile p = rest :=
  (@takeWhile_append_stop p [] rest nofun hr).2

/-- Nothing is taken off a text that starts with no blank. -/
theorem trimStart_eq (hr : ∀ c ∈ rest.head?, isBlank c = false) : trimStart rest = rest :=
  dropWhile_stop hr

/-- A row of characters of one class is one of a wider class if the wider class ends there, too. -/
theorem takeWhile_widen (hpq : ∀ c, p c → q c)
    (h : ∀ c ∈ (row.dropWhile p).head?, q c = false) :
    row.takeWhile q = row.takeWhile p ∧ row.dropWhile q = row.dropWhile p := by
  have hq : ∀ c ∈ row.takeWhile p, q c := fun c hc => hpq c (List.mem_takeWhile_imp hc)
  have := takeWhile_append_stop hq h
  rwa [List.takeWhile_append_dropWhile] at this

end Rows

/-! ### Marks -/

/-- Every entry of the table of marks is a mark and its character. -/
theorem table_char : ∀ entry ∈ Syntax.Mark.table, entry.1 = entry.2.char := by
  decide

/-- The character that is read as a mark is that of the mark. -/
theorem char_of_ofChar? {c : Char} {m : Syntax.Mark} (h : Syntax.Mark.ofChar? c = some m) :
    c = m.char := by
  obtain ⟨before, after, htable, -⟩ := List.lookup_eq_some_iff.1 h
  exact table_char (c, m) (by simp [htable])

/-- No mark is a word character, a point or a quote. -/
theorem not_isWordChar_char (m : Syntax.Mark) :
    isWordChar m.char = false ∧ m.char ≠ '.' ∧ m.char ≠ '"' ∧ m.char ≠ '\'' := by
  have h : isBasic m.char ∧ Grammar.isNameChar m.char = false ∧ m.char ≠ '.' ∧ m.char ≠ '"' ∧
      m.char ≠ '\'' := by
    cases m <;> decide
  rw [isWordChar_eq_isNameChar h.1]
  exact h.2

end ChartScript.Text
