import ChartScript.Proofs.Shortest
import ChartScript.Proofs.Storing

/-!
# Floats come back from their texts

A float is written with the digits of its shortest decimal number. The whole point is that the text,
positional or with an exponent, is read as that number again (`ChartScript.Number.Decimal.isNumeral_text`),
which rounds to the float. So every float without a sign comes back from JSON
(`ChartScript.Json.readsAs_float`), and every finite one from the text of a literal
(`ChartScript.Number.isLiteral_of_unsigned`).
-/

namespace ChartScript.Number

/-! ### Reading digits, a point and an exponent -/

section Reading

variable {whole fraction rest : List Char} (hw : ∀ c ∈ whole, c.isDigit) (hne : whole ≠ [])

theorem isSome_digitValue? {c : Char} (h : c.isDigit) : (Text.digitValue? c).isSome := by
  rw [digitValue?_eq h]
  rfl

include hw hne

/-- Digits without a point, and what follows them. -/
theorem readDecimal?_whole
    (hrest : ∀ c ∈ rest.head?, (Text.digitValue? c).isSome = false ∧ c ≠ '.') :
    readDecimal? (whole ++ rest) = (readExponent? rest).map fun k => ⟨spelled whole, k⟩ := by
  obtain ⟨htake, hdrop⟩ := Text.takeWhile_append_stop
    (fun c hc => isSome_digitValue? (hw c hc)) (fun c hc => (hrest c hc).1)
  have hvalues := digitValues?_eq hw
  rw [readDecimal?]
  simp only [htake, hdrop]
  rcases rest with _ | ⟨c, rest⟩
  · simp [hvalues, hne, readExponent?, spelled]
  · have hc : c ≠ '.' := (hrest c rfl).2
    rcases hexponent : readExponent? (c :: rest) with _ | k
    · simp [hc, hvalues, hexponent]
    · simp [hc, hvalues, hne, hexponent, spelled]

/-- Digits, a point, digits and what follows them. -/
theorem readDecimal?_pointed (hf : ∀ c ∈ fraction, c.isDigit)
    (hrest : ∀ c ∈ rest.head?, (Text.digitValue? c).isSome = false) :
    readDecimal? (whole ++ '.' :: (fraction ++ rest)) =
      (readExponent? rest).map fun k => ⟨spelled (whole ++ fraction), k - fraction.length⟩ := by
  have hpoint : ∀ c ∈ ('.' :: (fraction ++ rest)).head?, (Text.digitValue? c).isSome = false := by
    rintro c ⟨⟩
    rfl
  obtain ⟨htake, hdrop⟩ := Text.takeWhile_append_stop (fun c hc => isSome_digitValue? (hw c hc)) hpoint
  obtain ⟨htake', hdrop'⟩ := Text.takeWhile_append_stop (fun c hc => isSome_digitValue? (hf c hc)) hrest
  have hall : ∀ c ∈ whole ++ fraction, c.isDigit :=
    fun c hc => (List.mem_append.1 hc).elim (hw c) (hf c)
  have hvalues := digitValues?_eq hall
  rw [readDecimal?]
  simp only [htake, hdrop, htake', hdrop', hvalues, Option.bind_eq_bind, Option.bind_some]
  rw [if_neg (by simp [hne])]
  rcases readExponent? rest with _ | k <;> rfl

end Reading

/-- **The exponent mark is read as the exponent.** -/
theorem readExponent?_exponentText (k : Int) : readExponent? (exponentText k) = some k := by
  have hdigits : ∀ c ∈ natText k.natAbs, c.isDigit := isDigit_of_mem_natText
  -- the digits, with or without a zero before them
  have key : ∀ digits, (∀ c ∈ digits, c.isDigit) → digits ≠ [] → spelled digits = k.natAbs →
      readExponent? ('e' :: (if k < 0 then '-' else '+') :: digits) = some k := by
    intro digits hd hne hvalue
    have hempty : (digits.map fun c => c.toNat - '0'.toNat).isEmpty = false := by simpa using hne
    rw [spelled] at hvalue
    split
    · rw [readExponent?]
      simp only [splitSign, digitValues?_eq hd, Option.bind_eq_bind, Option.bind_some, hempty,
        hvalue, Bool.false_eq_true, if_false, if_true]
      congr 1
      omega
    · rw [readExponent?]
      simp only [splitSign, digitValues?_eq hd, Option.bind_eq_bind, Option.bind_some, hempty,
        hvalue, Bool.false_eq_true, if_false]
      congr 1
      omega
  rw [exponentText]
  by_cases hlength : (natText k.natAbs).length < 2
  · rw [if_pos hlength]
    refine key _ (List.forall_mem_cons.2 ⟨rfl, hdigits⟩) (by simp) ?_
    rw [← List.singleton_append, spelled_append, spelled_natText, show spelled ['0'] = 0 from rfl]
    simp
  · rw [if_neg hlength]
    exact key _ hdigits Nat.toDigits_ne_nil (spelled_natText _)

/-! ### The text of a decimal number -/

open Json (isNumeral isNumeral_of_isDigit)

/-- A text that is read as a number and not as an integer. -/
structure IsNumeral (text : List Char) (v : ℚ) : Prop where
  /-- The characters are those of numbers. -/
  chars : ∀ c ∈ text, isNumeral c
  /-- It starts with a digit. -/
  starts : ∀ c ∈ text.head?, c.isDigit
  /-- It has a point or an exponent. -/
  mark : ∃ c ∈ text, c.isDigit = false
  /-- It is read as the number. -/
  reads : ∃ d, readDecimal? text = some d ∧ d.value = v

theorem IsNumeral.ne_nil {text : List Char} {v : ℚ} (h : IsNumeral text v) : text ≠ [] := by
  rintro rfl
  obtain ⟨c, hc, -⟩ := h.mark
  cases hc

/-- Digits, a point and digits are a numeral. -/
theorem Pointed.isNumeral {text whole fraction : List Char} (h : Pointed text whole fraction) :
    IsNumeral text (Decimal.value ⟨spelled (whole ++ fraction), -(fraction.length : Int)⟩) where
  chars c hc := by
    rcases h.isDigit_or c hc with hd | rfl
    · exact isNumeral_of_isDigit hd
    · rfl
  starts c hc := by
    rw [h.eq, List.head?_append_of_ne_nil _ h.whole_ne_nil] at hc
    exact h.isDigit_whole c (List.mem_of_mem_head? hc)
  mark := ⟨'.', by simp [h.eq], rfl⟩
  reads := by
    have hend : ∀ c ∈ ([] : List Char).head?, (Text.digitValue? c).isSome = false := by simp
    have hread := readDecimal?_pointed h.isDigit_whole h.whole_ne_nil h.isDigit_fraction hend
    rw [List.append_nil, ← h.eq] at hread
    refine ⟨_, hread, ?_⟩
    show Decimal.value ⟨_, 0 - _⟩ = _
    rw [Int.zero_sub]

/-- An exponent mark is not a digit, and its characters are those of numbers. -/
theorem isNumeral_of_mem_exponentText {k : Int} : ∀ c ∈ exponentText k, isNumeral c := by
  have hdigits : ∀ c ∈ natText k.natAbs, isNumeral c :=
    fun c hc => isNumeral_of_isDigit (isDigit_of_mem_natText c hc)
  rw [exponentText]
  refine List.forall_mem_cons.2 ⟨rfl, List.forall_mem_cons.2 ⟨?_, ?_⟩⟩
  · split <;> rfl
  · split
    · exact List.forall_mem_cons.2 ⟨rfl, hdigits⟩
    · exact hdigits

/-- **Digits in exponent notation are a numeral.** -/
theorem isNumeral_scientific {digits : List Char} (hne : digits ≠ []) (hd : ∀ c ∈ digits, c.isDigit)
    (k : Int) : IsNumeral (scientific .json digits k)
      (Decimal.value ⟨spelled digits, k - ((digits.length : Int) - 1)⟩) := by
  have hexponent : ∀ c ∈ (exponentText k).head?, (Text.digitValue? c).isSome = false ∧ c ≠ '.' := by
    rintro c ⟨⟩
    exact ⟨rfl, by decide⟩
  have hnumeral := isNumeral_of_mem_exponentText (k := k)
  match digits, hne, hd with
  | [d], hne, hd =>
    have hread := readDecimal?_whole hd hne hexponent
    rw [readExponent?_exponentText] at hread
    refine ⟨?_, ?_, ⟨'e', by simp [scientific, exponentText], rfl⟩, _, hread, ?_⟩
    · exact List.forall_mem_cons.2 ⟨isNumeral_of_isDigit (hd d List.mem_cons_self), hnumeral⟩
    · rintro c ⟨⟩
      exact hd d List.mem_cons_self
    · simp
  | d :: c :: more, hne, hd =>
    obtain ⟨hfirst, hmore⟩ := List.forall_mem_cons.1 hd
    have hwhole : ∀ a ∈ [d], a.isDigit := by simpa using hfirst
    have hread := readDecimal?_pointed hwhole (by simp) hmore fun c hc => (hexponent c hc).1
    rw [readExponent?_exponentText] at hread
    refine ⟨?_, ?_, ⟨'.', by simp [scientific], rfl⟩, _, hread, ?_⟩
    · refine List.forall_mem_cons.2 ⟨isNumeral_of_isDigit hfirst, List.forall_mem_cons.2 ⟨rfl, ?_⟩⟩
      intro a ha
      exact (List.mem_append.1 ha).elim (fun ha => isNumeral_of_isDigit (hmore a ha)) (hnumeral a)
    · rintro a ⟨⟩
      exact hfirst
    · have hlength : k - ((c :: more).length : Int) = k - (((d :: c :: more).length : Int) - 1) := by
        simp
      rw [← hlength]
      rfl

/-- Digits with a point among them are a numeral. -/
theorem isNumeral_placePoint {digits : List Char} (hne : digits ≠ []) (hd : ∀ c ∈ digits, c.isDigit)
    (place : Int) : IsNumeral (placePoint digits place)
      (Decimal.value ⟨spelled digits, place - digits.length⟩) := by
  obtain ⟨whole, fraction, h, zeros, hvalue, hlength⟩ := exists_placePoint_eq hne hd place
  convert h.isNumeral using 1
  simp only [Decimal.value, hvalue, hlength]
  rw [show place - (digits.length : Int) = zeros + -(zeros + digits.length - place) by ring,
    zpow_add₀ (by norm_num), zpow_natCast]
  push_cast
  ring

/-- **The text of a decimal number is read as the number**, where it has digits. -/
theorem Decimal.isNumeral_text {d : Decimal} (hpos : 0 < d.digits) :
    IsNumeral (d.text .json) d.value ∧ IsNumeral (d.text .positional) d.value := by
  have hne : natText d.digits ≠ [] := Nat.toDigits_ne_nil
  have hd : ∀ c ∈ natText d.digits, c.isDigit := isDigit_of_mem_natText
  have hpoint := isNumeral_placePoint hne hd (d.exponent + (natText d.digits).length)
  have hexponent := isNumeral_scientific hne hd (d.exponent + (natText d.digits).length - 1)
  rw [spelled_natText, Int.add_sub_cancel] at hpoint
  rw [spelled_natText, show d.exponent + ((natText d.digits).length : Int) - 1 -
    ((natText d.digits).length - 1) = d.exponent by ring] at hexponent
  have hzero : ¬ d.digits = 0 := by omega
  refine ⟨?_, ?_⟩
  · rw [Decimal.text]
    simp only [if_neg hzero]
    show IsNumeral (if _ then _ else _) _
    split
    · exact hpoint
    · exact hexponent
  · rw [Decimal.text]
    simp only [if_neg hzero]
    exact hpoint

/-! ### Floats -/

/-- What a positive float is written with. -/
theorem floatText_finite {x : Float} {m : Nat} {e : Int} {hpos : 0 < m}
    (hx : x.toModel.unpack = .finite .positive m e hpos) :
    floatText .json x = (shortest .double m e).text .json ∧
      floatText .positional x = (shortest .double m e).text .positional := by
  constructor <;>
  · rw [floatText, Exact.ofFloat, hx]
    simp only [isNegative, Bool.false_eq_true, if_false, if_neg hpos.ne']
    rfl

/-- **The text of a positive float is a numeral that is read as the float.** -/
theorem exists_isNumeral_floatText {x : Float} {m : Nat} {e : Int} {hpos : 0 < m}
    (hx : x.toModel.unpack = .finite .positive m e hpos) :
    ∃ v, IsNumeral (floatText .json x) v ∧ IsNumeral (floatText .positional x) v ∧
      ∀ d : Decimal, d.value = v → ofDecimal false d.digits d.exponent = x := by
  have hc := canonical_of_unpack hx
  have hrounds := shortest_roundsTo hc
  have hdigits : 0 < (shortest .double m e).digits := by
    rcases Nat.eq_zero_or_pos (shortest .double m e).digits with hzero | hdigits
    · have := hrounds.pos hc
      rw [Decimal.value, hzero] at this
      simp at this
    · exact hdigits
  obtain ⟨hjson, hpositional⟩ := Decimal.isNumeral_text hdigits
  rw [(floatText_finite hx).1, (floatText_finite hx).2]
  refine ⟨_, hjson, hpositional, fun d hd => ?_⟩
  rw [← hd] at hrounds
  exact ofDecimal_eq hx hrounds

/-- A zero is read as the zero. -/
theorem ofDecimal_zero {x : Float} (hx : x.toModel.unpack = .zero .positive) :
    ofDecimal false 0 (-1) = x := by
  refine eq_of_unpack_eq ?_
  rw [hx]
  rfl

/-- **The text of a finite float without a sign is a literal that stands for it.** -/
theorem isLiteral_of_unsigned {x : Float} (hu : Unsigned x.toModel.unpack) (hf : x.isFinite) :
    IsLiteral x := by
  obtain ⟨whole, fraction, h⟩ := exists_floatText_eq hu hf
  refine ⟨whole, fraction, h, ?_⟩
  have hne : (whole ++ fraction).map (fun c => c.toNat - '0'.toNat) ≠ [] := by
    simp [h.whole_ne_nil]
  rw [literalFloat?, digitValues?_eq h.digits]
  simp only [Option.bind_eq_bind, Option.bind_some, List.isEmpty_iff, if_neg hne]
  congr 1
  show ofDecimal false (spelled (whole ++ fraction)) (-(fraction.length : Int)) = x
  have hf' : x.toModel.unpack.isFinite := hf
  cases hx : x.toModel.unpack with
  | notANumber | infinity =>
    rw [hx] at hf'
    cases hf'
  | finite sign m e hpos =>
    rw [hx] at hu
    cases hu
    obtain ⟨v, -, ⟨-, -, -, d, hread, hvalue⟩, hback⟩ := exists_isNumeral_floatText hx
    obtain ⟨d', hread', hvalue'⟩ := h.isNumeral.reads
    rw [hread] at hread'
    cases hread'
    exact hback ⟨_, _⟩ (hvalue'.symm.trans hvalue)
  | zero sign =>
    rw [hx] at hu
    cases hu
    have htext : floatText .positional x = ['0', '.', '0'] := by
      rw [floatText, Exact.ofFloat, hx]
      rfl
    obtain ⟨d, hread, hvalue⟩ := h.isNumeral.reads
    have hpoint := h.eq
    rw [htext] at hpoint
    -- one digit stands on either side of the point
    obtain ⟨rfl, rfl⟩ : whole = ['0'] ∧ fraction = ['0'] := by
      rcases whole with _ | ⟨c, _ | ⟨c', whole⟩⟩
      · exact absurd rfl h.whole_ne_nil
      · simp only [List.singleton_append, List.cons.injEq, true_and] at hpoint
        exact ⟨by rw [hpoint.1], hpoint.2.symm⟩
      · simp only [List.cons_append, List.cons.injEq] at hpoint
        have := h.isDigit_whole c' (by simp)
        rw [← hpoint.2.1] at this
        cases this
    exact ofDecimal_zero hx

end ChartScript.Number

namespace ChartScript.Json

open Number (IsNumeral Unsigned)

/-- A numeral is read as a float. -/
theorem number?_of_isNumeral {text : List Char} {v : ℚ} (h : IsNumeral text v) :
    ∃ d : Number.Decimal, d.value = v ∧
      number? text = some (.float (Number.ofDecimal false d.digits d.exponent)) := by
  obtain ⟨d, hread, hvalue⟩ := h.reads
  have hall : text.all Char.isDigit = false := by
    obtain ⟨c, hc, hmark⟩ := h.mark
    exact List.all_eq_false.2 ⟨c, hc, by simp [hmark]⟩
  refine ⟨d, hvalue, ?_⟩
  rw [number?.eq_def]
  split
  rename_i negative body heq
  split at heq
  · exact absurd (h.starts '-' rfl) (by decide)
  · cases heq
    simp [hall, hread]

/-- **Every float without a sign comes back from its text**, also those without digits. -/
theorem readsAs_float {x : Float} (hu : Unsigned x.toModel.unpack) :
    ReadsAs (Number.floatText .json x) (.float x) := by
  cases hx : x.toModel.unpack with
  | notANumber =>
    have htext : Number.floatText .json x = "NaN".toList := by
      rw [Number.floatText, Number.Exact.ofFloat, hx]
      rfl
    have hvalue : (0.0 / 0.0 : Float) = x := Number.eq_of_unpack_eq (by rw [hx]; rfl)
    rw [htext, ← hvalue]
    exact readsAs_bare (by decide) (List.all_eq_true.1 rfl) rfl
  | infinity sign =>
    rw [hx] at hu
    cases hu
    have htext : Number.floatText .json x = "Infinity".toList := by
      rw [Number.floatText, Number.Exact.ofFloat, hx]
      rfl
    have hvalue : (1.0 / 0.0 : Float) = x := Number.eq_of_unpack_eq (by rw [hx]; rfl)
    rw [htext, ← hvalue]
    exact readsAs_bare (by decide) (List.all_eq_true.1 rfl) rfl
  | zero sign =>
    rw [hx] at hu
    cases hu
    have htext : Number.floatText .json x = "0.0".toList := by
      rw [Number.floatText, Number.Exact.ofFloat, hx]
      rfl
    rw [htext, ← Number.ofDecimal_zero hx]
    exact readsAs_number (by decide) (List.all_eq_true.1 rfl) rfl
  | finite sign m e hpos =>
    rw [hx] at hu
    cases hu
    obtain ⟨v, h, -, hback⟩ := Number.exists_isNumeral_floatText hx
    obtain ⟨d, hvalue, hnumber⟩ := number?_of_isNumeral h
    rw [hback d hvalue] at hnumber
    exact readsAs_number h.ne_nil h.chars hnumber

end ChartScript.Json
