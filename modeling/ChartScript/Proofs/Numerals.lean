import ChartScript.Number.Numeral
import ChartScript.Proofs.Characters

/-!
# Literals that are written and read again

A number literal has no sign, so a number can only be written as a literal if it has none. The
numbers that literals stand for have none: an integer is a natural number
(`ChartScript.Number.literalInt?_natText`), and rounding a decimal number to a float brings no minus
sign in (`ChartScript.Number.unsigned_ofDecimal`).

The text of a finite float without a sign is digits, a point and digits
(`ChartScript.Number.exists_floatText_eq`), and on such a text the reader of numerals and the reader
of literals are the same (`ChartScript.Number.readFloat?_eq_literalFloat?`). That the text stands for
the float it was made from is a promise of the two conversions, which is not looked into here.
-/

namespace ChartScript.Number

open Float.Model
open Float.Model.UnpackedFloat (Sign Accuracy)

/-! ### The sign of a float -/

/-- A float without a minus sign, in its parts. -/
inductive Unsigned : UnpackedFloat → Prop
  /-- Not a number. -/
  | notANumber : Unsigned .notANumber
  /-- The infinity. -/
  | infinity : Unsigned (.infinity .positive)
  /-- The zero. -/
  | zero : Unsigned (.zero .positive)
  /-- A positive number. -/
  | finite (mantissa : Nat) (exponent : Int) (pos : 0 < mantissa) :
    Unsigned (.finite .positive mantissa exponent pos)

/-- The bit of the sign is the sign. -/
theorem unpackSign_packComponents {spec : Format} {sign : Sign}
    {exponent : BitVec spec.exponentBits} {mantissa : BitVec spec.mantissaBitsWithoutImplicit} :
    UnpackedFloat.unpackSign (UnpackedFloat.packComponents spec sign exponent mantissa) =
      sign.toBitVec := by
  ext i hi
  obtain rfl : i = 0 := by omega
  have hm : ¬ spec.mantissaBitsWithoutImplicit + spec.exponentBits <
      spec.mantissaBitsWithoutImplicit := by omega
  have he : ¬ spec.mantissaBitsWithoutImplicit + spec.exponentBits -
      spec.mantissaBitsWithoutImplicit < spec.exponentBits := by omega
  simp only [UnpackedFloat.unpackSign, UnpackedFloat.packComponents, BitVec.getElem_cast,
    BitVec.extractLsb, BitVec.getElem_extractLsb', Nat.add_zero]
  rw [BitVec.getLsbD_append, if_neg hm, BitVec.getLsbD_append, if_neg he]
  simp [BitVec.getLsbD_eq_getElem]

/-- Where the bit of the sign is not set there is no minus sign. -/
theorem unsigned_unpack {spec : Format} {bits : BitVec spec.numBits}
    (h : UnpackedFloat.unpackSign bits = 0#1) : Unsigned (UnpackedFloat.unpack spec bits) := by
  have hs : Sign.ofBitVec 0#1 = .positive := rfl
  rw [UnpackedFloat.unpack]
  simp only [h, hs]
  split
  · split
    · exact .infinity
    · exact .notANumber
  · split
    · split
      · exact .zero
      · exact .finite _ _ _
    · exact .finite _ _ _

/-- A float that is put away without a sign comes back without one. -/
theorem Unsigned.unpack_pack {u : UnpackedFloat} (h : Unsigned u) : Unsigned (pack u).unpack := by
  have key : ∀ exponent mantissa, Unsigned (UnpackedFloat.unpack Format.binary64
      (UnpackedFloat.packComponents Format.binary64 .positive exponent mantissa)) :=
    fun _ _ => unsigned_unpack unpackSign_packComponents
  rw [unpack, pack]
  cases h with
  | notANumber | infinity | zero => exact key _ _
  | finite mantissa exponent pos =>
    simp only [UnpackedFloat.pack]
    split
    · exact key _ _
    · split <;> exact key _ _

theorem unsigned_roundWithAccuracy (spec : Format) (mantissa : Nat) (exponent : Int)
    (accuracy : Accuracy) :
    Unsigned (UnpackedFloat.roundWithAccuracy spec .positive mantissa exponent accuracy) := by
  simp only [UnpackedFloat.roundWithAccuracy]
  split
  · exact .zero
  · exact .finite _ _ _

section Arithmetic

variable {spec : Format} {u v : UnpackedFloat} (hu : Unsigned u) (hv : Unsigned v)

include hu hv

theorem Unsigned.mul : Unsigned (UnpackedFloat.mul spec u v) := by
  cases hu <;> cases hv <;> first
    | exact .notANumber
    | exact .infinity
    | exact .zero
    | exact unsigned_roundWithAccuracy _ _ _ _

theorem Unsigned.div : Unsigned (UnpackedFloat.div spec u v) := by
  cases hu <;> cases hv <;> first
    | exact .notANumber
    | exact .infinity
    | exact .zero
    | exact unsigned_roundWithAccuracy _ _ _ _

end Arithmetic

theorem unsigned_ofNat (spec : Format) (n : Nat) : Unsigned (UnpackedFloat.ofNat spec n) := by
  rw [UnpackedFloat.ofNat, UnpackedFloat.ofInt, UnpackedFloat.normalize]
  split
  · rename_i h
    rw [Int.compare_eq_lt] at h
    omega
  · exact .zero
  · exact unsigned_roundWithAccuracy _ _ _ _

theorem unsigned_ofScientific (spec : Format) (digits : Nat) (exponent : Int) :
    Unsigned (UnpackedFloat.ofScientific spec digits exponent) := by
  rw [UnpackedFloat.ofScientific]
  split
  · exact .zero
  · split
    · exact .infinity
    · split
      · exact .zero
      · split
        · exact .mul (.finite _ _ _) (.finite _ _ _)
        · exact .div (.finite _ _ _) (.finite _ _ _)

theorem unsigned_ofBits {bits : UInt64}
    (h : @UnpackedFloat.unpackSign Format.binary64 bits.toBitVec = 0#1) :
    Unsigned (Float.ofBits bits).toModel.unpack :=
  (unsigned_unpack h).unpack_pack

/-- The powers of ten that are floats have no sign. -/
theorem unsigned_powersOfTen :
    ∀ x ∈ Float.exactlyRepresentablePowersOfTen.toList, Unsigned x.toModel.unpack := by
  simp only [Float.exactlyRepresentablePowersOfTen, List.forall_mem_cons]
  refine ⟨?_, ?_, ?_, ?_, ?_, ?_, ?_, ?_, ?_, ?_, ?_, ?_, ?_, ?_, ?_, ?_, ?_, ?_, ?_, ?_, ?_, ?_, ?_,
    by simp⟩
  all_goals exact unsigned_ofBits (by decide)

/-- **Rounding a decimal number brings no minus sign in.** Small numbers go by one operation on two
floats, the others are rounded once. -/
theorem unsigned_ofDecimal (digits : Nat) (exponent : Int) :
    Unsigned (ofDecimal false digits exponent).toModel.unpack := by
  have key : ∀ s e, Unsigned (Float.ofScientific digits s e).toModel.unpack := by
    intro s e
    rw [Float.ofScientific]
    split
    · rename_i h
      have hlen : e < Float.exactlyRepresentablePowersOfTen.size :=
        Nat.lt_of_le_of_lt h.2 (by decide)
      have hten := unsigned_powersOfTen _ (Array.getElem_mem_toList hlen)
      have hn : Unsigned (Nat.toUInt64 digits).toFloat.toModel.unpack :=
        (unsigned_ofNat _ _).unpack_pack
      split
      · exact (hn.div hten).unpack_pack
      · exact (hn.mul hten).unpack_pack
    · exact (unsigned_ofScientific _ _ _).unpack_pack
  rw [ofDecimal]
  simp only [Bool.false_eq_true, if_false]
  split
  · exact key _ _
  · exact key _ _

/-! ### Integer literals -/

/-- The value of a basic digit. -/
theorem digitValue?_eq {c : Char} (h : c.isDigit) : Text.digitValue? c = some (c.toNat - '0'.toNat) := by
  have hb : Text.isBasic c := Text.isBasic_of_isAlphanum (by simp [Char.isAlphanum, h])
  simp only [Text.isBasic, decide_eq_true_eq] at hb
  rw [Text.digitValue?, if_pos hb, if_pos h]

/-- The values of basic digits. -/
theorem digitValues?_eq {text : List Char} (h : ∀ c ∈ text, c.isDigit) :
    digitValues? text = some (text.map fun c => c.toNat - '0'.toNat) := by
  rw [digitValues?]
  induction text with
  | nil => rfl
  | cons c text ih =>
    rw [List.mapM_cons, digitValue?_eq (h c List.mem_cons_self),
      ih fun d hd => h d (List.mem_cons_of_mem _ hd)]
    rfl

theorem ofDigits_eq_ofDigitChars (text : List Char) :
    ofDigits (text.map fun c => c.toNat - '0'.toNat) = Nat.ofDigitChars 10 text 0 := by
  rw [ofDigits, Nat.ofDigitChars_eq_foldl, List.foldl_map]

/-- The number that a row of basic digits stands for. -/
def spelled (text : List Char) : Nat := ofDigits (text.map fun c => c.toNat - '0'.toNat)

theorem spelled_concat (text : List Char) (c : Char) :
    spelled (text ++ [c]) = 10 * spelled text + (c.toNat - '0'.toNat) := by
  rw [spelled, List.map_append, List.map_singleton, ofDigits_concat, spelled]

/-- Digits behind others move these up. -/
theorem spelled_append (first second : List Char) :
    spelled (first ++ second) = spelled first * 10 ^ second.length + spelled second := by
  induction second using List.reverseRecOn with
  | nil => simp [spelled]
  | append_singleton second c ih =>
    rw [← List.append_assoc, spelled_concat, ih, spelled_concat, List.length_append,
      List.length_singleton, Nat.pow_succ, Nat.mul_add, ← Nat.mul_assoc, ← Nat.mul_assoc,
      Nat.mul_comm 10, Nat.mul_right_comm, Nat.add_assoc]

@[simp] theorem spelled_zeros (n : Nat) : spelled (List.replicate n '0') = 0 := by
  induction n with
  | zero => rfl
  | succ n ih =>
    rw [List.replicate_succ', spelled_concat, ih]
    rfl

/-- The decimal digits of a number spell it. -/
theorem spelled_natText (n : Nat) : spelled (natText n) = n := by
  rw [spelled, ofDigits_eq_ofDigitChars]
  exact Nat.ofDigitChars_ten_toDigits

/-- A number of so many digits is less than a power of ten. -/
theorem ofDigits_lt {digits : List Nat} (h : ∀ d ∈ digits, d < 10) :
    ofDigits digits < 10 ^ digits.length := by
  induction digits using List.reverseRecOn with
  | nil => simp
  | append_singleton digits d ih =>
    have hd : d < 10 := h d (by simp)
    have := ih fun e he => h e (List.mem_append_left _ he)
    rw [ofDigits_concat, List.length_append, List.length_singleton, Nat.pow_succ]
    omega

/-- A digit has a value below ten. -/
theorem digitValue?_lt {c : Char} {d : Nat} (h : Text.digitValue? c = some d) : d < 10 := by
  rw [Text.digitValue?] at h
  split at h
  · split at h
    · rename_i hc
      cases h
      obtain ⟨h0, h9⟩ := Char.isDigit_iff_toNat.1 hc
      simp only [Char.reduceToNat] at h0 h9 ⊢
      omega
    · cases h
  · obtain ⟨start, hf, rfl⟩ := Option.map_eq_some_iff.1 h
    have := Array.find?_some hf
    simp only [Bool.and_eq_true, decide_eq_true_eq] at this
    omega

theorem digitValues?_lt {text : List Char} {digits : List Nat} (h : digitValues? text = some digits) :
    ∀ d ∈ digits, d < 10 := by
  rw [digitValues?] at h
  induction text generalizing digits with
  | nil =>
    cases h
    simp
  | cons c text ih =>
    rw [List.mapM_cons] at h
    obtain ⟨d, hd, h⟩ := Option.bind_eq_some_iff.1 h
    obtain ⟨more, hmore, h⟩ := Option.bind_eq_some_iff.1 h
    cases h
    exact List.forall_mem_cons.2 ⟨digitValue?_lt hd, ih hmore⟩

/-- An integer literal has a bound. -/
theorem lt_of_literalInt? {text : List Char} {n : Nat} (h : literalInt? text = some n) :
    n < 10 ^ digitLimit := by
  obtain ⟨digits, hd, h⟩ := Option.bind_eq_some_iff.1 h
  split at h
  · cases h
  · rename_i hlen
    cases h
    have hlt := ofDigits_lt (digitValues?_lt hd)
    have hle : digits.length ≤ digitLimit := by
      simp only [Bool.or_eq_true, decide_eq_true_eq, not_or, Nat.not_lt] at hlen
      exact hlen.2
    exact Nat.lt_of_lt_of_le hlt (Nat.pow_le_pow_right (by decide) hle)

theorem isDigit_of_mem_natText {n : Nat} : ∀ c ∈ natText n, c.isDigit :=
  fun _ => Nat.isDigit_of_mem_toDigits (by decide) (by decide)

/-- **An integer below the bound is read from its digits.** -/
theorem literalInt?_natText {n : Nat} (h : n < 10 ^ digitLimit) : literalInt? (natText n) = some n := by
  rw [literalInt?, digitValues?_eq isDigit_of_mem_natText]
  have hne : natText n ≠ [] := Nat.toDigits_ne_nil
  have hlen : (natText n).length ≤ digitLimit :=
    (Nat.length_toDigits_le_iff (by decide) (by decide)).2 h
  have hnot : ¬ digitLimit < (natText n).length := by omega
  have heq : ofDigits ((natText n).map fun c => c.toNat - '0'.toNat) = n := spelled_natText n
  simpa [hne, hnot] using heq

/-! ### Float literals -/

/-- Digits, a point and digits. -/
structure Pointed (text whole fraction : List Char) : Prop where
  /-- The parts make up the text. -/
  eq : text = whole ++ '.' :: fraction
  /-- There are digits before the point. -/
  whole_ne_nil : whole ≠ []
  /-- There are digits behind the point. -/
  fraction_ne_nil : fraction ≠ []
  /-- All others are basic digits. -/
  digits : ∀ c ∈ whole ++ fraction, c.isDigit

theorem isDigit_of_mem_zeros {n : Nat} : ∀ c ∈ List.replicate n '0', c.isDigit := by
  intro c hc
  rw [List.eq_of_mem_replicate hc]
  rfl

/-- Placing the point leaves digits on either side of it, and adds zeros only. -/
theorem exists_placePoint_eq {digits : List Char} (hne : digits ≠ []) (hd : ∀ c ∈ digits, c.isDigit)
    (place : Int) : ∃ whole fraction, Pointed (placePoint digits place) whole fraction ∧
      ∃ zeros : Nat, spelled (whole ++ fraction) = spelled digits * 10 ^ zeros ∧
        (fraction.length : Int) = zeros + digits.length - place := by
  rw [placePoint]
  split
  · rename_i hneg
    refine ⟨['0'], List.replicate (-place).toNat '0' ++ digits,
      ⟨by simp, by simp, by simp [hne], ?_⟩, 0, ?_, ?_⟩
    · intro c hc
      rcases List.mem_append.1 hc with hc | hc
      · rw [List.mem_singleton.1 hc]
        rfl
      · exact (List.mem_append.1 hc).elim (isDigit_of_mem_zeros c) (hd c)
    · rw [spelled_append, spelled_append, spelled_zeros, show spelled ['0'] = 0 from rfl]
      simp
    · simp only [List.length_append, List.length_replicate]
      omega
  · rename_i hpos
    simp only []
    split
    · refine ⟨digits ++ List.replicate (place.toNat - digits.length) '0', ['0'],
        ⟨by simp, by simp [hne], by simp, ?_⟩,
        place.toNat - digits.length + 1, ?_, ?_⟩
      · intro c hc
        rcases List.mem_append.1 hc with hc | hc
        · exact (List.mem_append.1 hc).elim (hd c) (isDigit_of_mem_zeros c)
        · rw [List.mem_singleton.1 hc]
          rfl
      · rw [spelled_concat, spelled_append, spelled_zeros, List.length_replicate, Nat.pow_succ,
          ← Nat.mul_assoc]
        simp [Nat.mul_comm]
      · simp only [List.length_singleton]
        omega
    · rename_i hlen
      refine ⟨digits.take place.toNat, digits.drop place.toNat, ⟨rfl, ?_, ?_, ?_⟩, 0, ?_, ?_⟩
      · rw [Ne, List.take_eq_nil_iff]
        rintro (h | h)
        · omega
        · exact hne h
      · rw [Ne, List.drop_eq_nil_iff]
        omega
      · rw [List.take_append_drop]
        exact hd
      · rw [List.take_append_drop]
        simp
      · rw [List.length_drop]
        omega

/-- The text of a decimal number is digits, a point and digits. -/
theorem Decimal.exists_text_eq (d : Decimal) :
    ∃ whole fraction, Pointed (d.text .positional) whole fraction := by
  simp only [Decimal.text]
  split
  · exact ⟨['0'], ['0'], rfl, by simp, by simp, List.all_eq_true.1 rfl⟩
  · obtain ⟨whole, fraction, h, -⟩ :=
      exists_placePoint_eq Nat.toDigits_ne_nil (@isDigit_of_mem_natText d.digits)
        (d.exponent + (natText d.digits).length)
    exact ⟨whole, fraction, h⟩

/-- **The text of a float literal is digits, a point and digits.** -/
theorem exists_floatText_eq {x : Float} (hu : Unsigned x.toModel.unpack) (hf : x.isFinite) :
    ∃ whole fraction, Pointed (floatText .positional x) whole fraction := by
  have hf' : x.toModel.unpack.isFinite := hf
  rw [floatText, Exact.ofFloat]
  cases hu' : x.toModel.unpack with
  | notANumber | infinity =>
    rw [hu'] at hf'
    cases hf'
  | zero sign | finite sign =>
    rw [hu'] at hu
    cases hu
    simp only [isNegative, Bool.false_eq_true, if_false]
    exact Decimal.exists_text_eq _

section Pointed

variable {text whole fraction : List Char} (h : Pointed text whole fraction)

include h

/-- Such a text has no signs, blanks, letters or underscores. -/
theorem Pointed.isDigit_or : ∀ c ∈ text, c.isDigit ∨ c = '.' := by
  intro c hc
  rw [h.eq] at hc
  rcases List.mem_append.1 hc with hc | hc
  · exact .inl (h.digits c (List.mem_append_left _ hc))
  · rcases List.mem_cons.1 hc with hc | hc
    · exact .inr hc
    · exact .inl (h.digits c (List.mem_append_right _ hc))

theorem Pointed.isDigit_whole : ∀ c ∈ whole, c.isDigit :=
  fun c hc => h.digits c (List.mem_append_left _ hc)

theorem Pointed.isDigit_fraction : ∀ c ∈ fraction, c.isDigit :=
  fun c hc => h.digits c (List.mem_append_right _ hc)

end Pointed

/-- Nothing is taken out of a text without underscores. -/
theorem dropUnderscores?_eq {text : List Char} (h : '_' ∉ text) (afterDigit : Bool) :
    dropUnderscores? afterDigit text = some text := by
  induction text generalizing afterDigit with
  | nil => rfl
  | cons c text ih =>
    rw [List.mem_cons, not_or] at h
    have hc : c ≠ '_' := Ne.symm h.1
    rw [dropUnderscores?.eq_def]
    split
    · rename_i heq
      cases heq
    · rename_i heq
      cases heq
      exact absurd rfl hc
    · rename_i heq
      cases heq
      exact absurd rfl hc
    · rename_i heq
      cases heq
      rw [ih h.2]
      rfl

/-- Nothing stands around a text that has no padding. -/
theorem unpadded_eq {text : List Char} (h : ∀ c ∈ text, isPadding c = false) : unpadded text = text := by
  have hfirst : ∀ c ∈ text.head?, isPadding c = false := fun c hc => h c (List.mem_of_mem_head? hc)
  have hlast : ∀ c ∈ text.reverse.head?, isPadding c = false :=
    fun c hc => h c (List.mem_reverse.1 (List.mem_of_mem_head? hc))
  rw [unpadded, Text.dropWhile_stop hfirst, Text.dropWhile_stop hlast, List.reverse_reverse]

/-- A word without a point is none of those. -/
theorem ofList_toLower_ne {text : List Char} (h : '.' ∈ text) {word : String}
    (hw : '.' ∉ word.toList) : String.ofList (text.map Char.toLower) ≠ word := by
  rintro rfl
  rw [String.toList_ofList] at hw
  exact hw (List.mem_map.2 ⟨'.', h, rfl⟩)

/-! ### Literals as numerals -/

section Decimals

/-- A character of a numeral that has no sign, no exponent and nothing around it. -/
def IsDecimalOrPoint (c : Char) : Prop := Text.isDecimalDigit c ∨ c = '.'

variable {text whole fraction : List Char}

theorem IsDecimalOrPoint.isPadding_eq {c : Char} (h : IsDecimalOrPoint c) : isPadding c = false := by
  have hb : ¬ Text.isBlank c := by
    intro hb
    rcases h with h | rfl
    · rw [Text.isDecimalDigit_of_isBlank hb] at h
      cases h
    · exact Text.not_isBlank (by decide) hb
  simp [isPadding, hb]

/-- Such a text is taken as it stands: without padding, sign or underscores. -/
theorem plain_of_decimals (h : ∀ c ∈ text, IsDecimalOrPoint c) :
    unpadded text = text ∧ splitSign text = (false, text) ∧
      dropUnderscores? false text = some text := by
  have hother : ∀ c, Text.isDecimalDigit c = false → c ≠ '.' → c ∉ text := by
    intro c hd hp hc
    rcases h c hc with h | h
    · rw [hd] at h
      cases h
    · exact hp h
  refine ⟨unpadded_eq fun c hc => (h c hc).isPadding_eq, ?_,
    dropUnderscores?_eq (hother '_' (by decide) (by decide)) false⟩
  rw [splitSign.eq_def]
  split
  · exact absurd List.mem_cons_self (hother '-' (by decide) (by decide))
  · exact absurd List.mem_cons_self (hother '+' (by decide) (by decide))
  · rfl

/-- As a numeral an integer literal stands for what it does as a literal. -/
theorem readInt?_eq_literalInt? (h : ∀ c ∈ text, Text.isDecimalDigit c) :
    readInt? text = (literalInt? text).map Int.ofNat := by
  obtain ⟨hpad, hsign, hunder⟩ := plain_of_decimals fun c hc => .inl (h c hc)
  rw [readInt?, hpad, hsign]
  simp only [hunder, Option.bind_eq_bind, Option.bind_some]
  rcases literalInt? text with _ | n <;> rfl

/-- **As a numeral a float literal stands for what it does as a literal.** -/
theorem readFloat?_of_decimals (h : ∀ c ∈ whole ++ fraction, Text.isDecimalDigit c) :
    readFloat? (whole ++ '.' :: fraction) = literalFloat? whole fraction := by
  have hchars : ∀ c ∈ whole ++ '.' :: fraction, IsDecimalOrPoint c := by
    simp only [List.forall_mem_append, List.forall_mem_cons] at h ⊢
    exact ⟨fun c hc => .inl (h.1 c hc), .inr rfl, fun c hc => .inl (h.2 c hc)⟩
  have hvalue : ∀ c ∈ whole ++ fraction, (Text.digitValue? c).isSome := h
  obtain ⟨hwhole, hfraction⟩ := List.forall_mem_append.1 hvalue
  obtain ⟨hpad, hsign, hunder⟩ := plain_of_decimals hchars
  have hpoint : '.' ∈ whole ++ '.' :: fraction := by simp
  have hstop : ∀ c ∈ ('.' :: fraction).head?, (Text.digitValue? c).isSome = false := by
    rintro c ⟨⟩
    rfl
  obtain ⟨hw, hr⟩ := Text.takeWhile_append_stop hwhole hstop
  have hf := List.takeWhile_eq_self_iff.2 hfraction
  have hf' := List.dropWhile_eq_nil_iff.2 hfraction
  have hdec : readDecimal? (whole ++ '.' :: fraction) =
      (digitValues? (whole ++ fraction)).bind fun digits =>
        if digits.isEmpty then none else some ⟨ofDigits digits, -(fraction.length : Int)⟩ := by
    rw [readDecimal?]
    simp only [hw, hr, hf, hf', readExponent?, Option.bind_eq_bind, Option.bind_some, Int.zero_sub]
  rw [readFloat?, hpad, hsign]
  simp only []
  rw [if_neg, if_neg (ofList_toLower_ne hpoint (by decide)), hunder]
  · simp only [Option.bind_eq_bind, Option.bind_some, hdec, literalFloat?]
    rcases digitValues? (whole ++ fraction) with _ | digits
    · rfl
    · simp only [Option.bind_some]
      split <;> rfl
  · rw [Bool.or_eq_true, decide_eq_true_eq, decide_eq_true_eq]
    rintro (hinf | hinf)
    · exact ofList_toLower_ne hpoint (by decide) hinf
    · exact ofList_toLower_ne hpoint (by decide) hinf

end Decimals

/-- The text of a finite float is such a literal. -/
theorem readFloat?_eq_literalFloat? {text whole fraction : List Char}
    (h : Pointed text whole fraction) :
    readFloat? text = literalFloat? whole fraction := by
  rw [h.eq]
  refine readFloat?_of_decimals fun c hc => ?_
  rw [Text.isDecimalDigit, digitValue?_eq (h.digits c hc)]
  rfl

/-- A float whose text is a literal that stands for it. -/
def IsLiteral (x : Float) : Prop :=
  ∃ whole fraction, Pointed (floatText .positional x) whole fraction ∧
    literalFloat? whole fraction = some x

/-- **A finite float without a sign is a literal** if its text is read as the float again. -/
theorem isLiteral_of_readFloat? {x : Float} (hu : Unsigned x.toModel.unpack) (hf : x.isFinite)
    (hr : readFloat? (floatText .positional x) = some x) : IsLiteral x := by
  obtain ⟨whole, fraction, h⟩ := exists_floatText_eq hu hf
  exact ⟨whole, fraction, h, by rw [← readFloat?_eq_literalFloat? h, hr]⟩

/-- A float literal has no sign. -/
theorem unsigned_of_literalFloat? {whole fraction : List Char} {x : Float}
    (h : literalFloat? whole fraction = some x) : Unsigned x.toModel.unpack := by
  obtain ⟨digits, -, h⟩ := Option.bind_eq_some_iff.1 h
  split at h
  · cases h
  · cases h
    exact unsigned_ofDecimal _ _

end ChartScript.Number
