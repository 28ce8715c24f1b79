import ChartScript.Proofs.Shortest
import ChartScript.Value.Number

/-!
# Where the floats end

The largest float lies below `2 ^ 1024`, and half a unit above it rounding begins to give an infinity.
This is `ChartScript.Number.ceiling`. A number below it is rounded to a finite float
(`ChartScript.Number.isFinite_round`), a number at or above it is not
(`ChartScript.Number.isFinite_round_of_le`), so an integer can be made a float exactly if it is below in
magnitude (`ChartScript.Number.isSome_ofInt?_iff`).

Two kinds of numbers that come from floats are always below: the integer part of a float, and the
product of a float and a share of one.
-/

namespace ChartScript.Number

open Float.Model Float.Model.UnpackedFloat

/-- The first natural number that is too large for a float. -/
def ceiling : Nat := 2 ^ 1024 - 2 ^ 970

theorem ceiling_eq : ceiling = 2 ^ 1024 - 2 ^ 970 := rfl

theorem ceiling_pos : 0 < ceiling := by decide +kernel

/-- The number as a rational one. -/
theorem ceiling_cast : (ceiling : ℚ) = 2 ^ (1024 : Int) - 2 ^ (970 : Int) := by
  have hcast : ∀ m n : Nat, n ≤ m → ((2 ^ m - 2 ^ n : Nat) : ℚ) = 2 ^ (m : Int) - 2 ^ (n : Int) := by
    intro m n h
    rw [Nat.cast_sub (Nat.pow_le_pow_right (by decide) h), Nat.cast_pow, Nat.cast_pow,
      Nat.cast_ofNat, zpow_natCast, zpow_natCast]
  rw [ceiling_eq, hcast _ _ (by decide), Nat.cast_ofNat, Nat.cast_ofNat]

theorem ceiling_lt : (ceiling : ℚ) < 2 ^ (1024 : Int) := by
  rw [ceiling_cast]
  exact sub_lt_self _ (two_zpow_pos 970)

theorem le_ceiling : (2 : ℚ) ^ (1023 : Int) ≤ ceiling := by
  have hdouble : (2 : ℚ) ^ (1024 : Int) = 2 ^ (1023 : Int) * 2 := zpow_add_one₀ (by norm_num) 1023
  rw [ceiling_cast, hdouble, mul_two, add_sub_assoc]
  exact le_add_of_nonneg_right (sub_nonneg.2 (two_zpow_le (by norm_num)))

/-! ### The bits of what is finite -/

/-- A row of bits is finite if the exponent is not all ones. -/
theorem isFinite_unpack_packComponents (sign : Sign) (exponent : BitVec 11) (mantissa : BitVec 52) :
    (UnpackedFloat.unpack Format.binary64
      (packComponents Format.binary64 sign exponent mantissa)).isFinite = true ↔ exponent ≠ -1#11 := by
  simp only [UnpackedFloat.unpack, unpackExponent_packComponents, unpackMantissa_packComponents]
  by_cases hones : exponent = -1#11
  · rw [if_pos hones]
    refine iff_of_false ?_ (not_not.2 hones)
    split <;> simp [UnpackedFloat.isFinite]
  · rw [if_neg hones]
    refine iff_of_true ?_ hones
    split
    · split <;> rfl
    · rfl

/-- **What is put away is finite** if the exponent is not too large. -/
theorem isFinite_pack_iff (sign : Sign) {m : Nat} (e : Int) (hpos : 0 < m) :
    (Float.Model.pack (.finite sign m e hpos)).unpack.isFinite = true ↔ e ≤ 971 := by
  show (UnpackedFloat.unpack Format.binary64 (UnpackedFloat.pack Format.binary64
    (.finite sign m e hpos))).isFinite = true ↔ _
  have hbiased : (e + Format.binary64.exponentBias +
      Format.binary64.mantissaBitsWithoutImplicit).toNat = (e + 1075).toNat := by
    show (e + 1023 + 52).toNat = _
    congr 1
    ring
  have hbits : 2 ^ Format.binary64.exponentBits = 2048 := rfl
  simp only [UnpackedFloat.pack, hbiased, hbits]
  have hones : ∀ n : Nat, n < 2047 → BitVec.ofNat 11 n ≠ -1#11 := by
    intro n hn h
    have hnat := congrArg BitVec.toNat h
    rw [BitVec.toNat_ofNat, Nat.mod_eq_of_lt (by omega)] at hnat
    change n = 2047 at hnat
    omega
  split
  · exact iff_of_false (by rw [packedInfinity, isFinite_unpack_packComponents]; simp) (by omega)
  · rename_i hroom
    refine iff_of_true ?_ (by omega)
    split
    · exact (isFinite_unpack_packComponents _ _ _).2 (hones _ (by omega))
    · exact (isFinite_unpack_packComponents _ _ _).2 (by decide)

/-! ### Rounding at the end of the floats -/

/-- Rounding a mantissa, step by step. -/
theorem roundWithAccuracy_exact (sign : Sign) (mantissa : Nat) (exponent : Int) :
    ∃ r : Nat, ∃ e : Int, e = max (lastExponent mantissa exponent) exponent ∧
      r = divEven mantissa (2 ^ (lastExponent mantissa exponent - exponent).toNat) ∧
      roundWithAccuracy Format.binary64 sign mantissa exponent .exact =
        if h : r / 2 ^ (lastExponent r e - e).toNat = 0 then .zero sign
        else .finite sign (r / 2 ^ (lastExponent r e - e).toNat) (max (lastExponent r e) e)
          (Nat.pos_of_ne_zero h) := by
  refine ⟨_, _, rfl, rfl, ?_⟩
  have hlast : ∀ (m : Nat) (e : Int), e + (lastExponent m e - e).toNat = max (lastExponent m e) e := by
    intro m e
    omega
  have hround : ∀ k : Nat, (extended mantissa (2 ^ k)).roundedMantissa = divEven mantissa (2 ^ k) :=
    fun k => roundedMantissa_extended (by positivity)
  simp only [roundWithAccuracy, shiftToTargetExponent_exact, hlast, hround]
  rfl

/-- Rounding a quotient that is at most a half below an even integer does not end below it. -/
theorem le_divEven {num den n : Nat} (hden : 0 < den) (heven : n % 2 = 0)
    (h : 2 * (n * den) ≤ 2 * num + den) : n ≤ divEven num den := by
  have hmod := Nat.mod_lt num hden
  have hdiv : num = num / den * den + num % den := (Nat.div_add_mod' num den).symm
  rw [divEven]
  rcases Nat.lt_or_ge (num / den) n with hlt | hge
  · -- the quotient is just below, so the half is reached and the quotient is odd
    have hstep : (num / den + 1) * den = num / den * den + den := Nat.succ_mul _ _
    have heq : n = num / den + 1 := by
      by_contra hne
      have : (num / den + 1 + 1) * den ≤ n * den := Nat.mul_le_mul_right den (by omega)
      rw [Nat.succ_mul] at this
      omega
    subst heq
    split
    · omega
    · split <;> omega
  · split
    · exact hge
    · split <;> omega

section Rounding

variable {mantissa : Nat} {exponent : Int}

/-- The last digit that is kept of a number that is not too large is not too large either. -/
theorem lastExponent_le (hpos : 0 < mantissa)
    (h : (mantissa : ℚ) * 2 ^ exponent < 2 ^ (1024 : Int)) :
    lastExponent mantissa exponent ≤ 971 := by
  have hlow : (2 : ℚ) ^ (mantissa.log2 : Int) ≤ mantissa := by
    rw [zpow_natCast]
    exact_mod_cast Nat.log2_self_le hpos.ne'
  have hlog : (2 : ℚ) ^ ((mantissa.log2 : Int) + exponent) < 2 ^ (1024 : Int) := by
    rw [zpow_add₀ (by norm_num)]
    exact (mul_le_mul_of_nonneg_right hlow (two_zpow_pos exponent).le).trans_lt h
  have := (zpow_lt_zpow_iff_right₀ (by norm_num : (1 : ℚ) < 2)).1 hlog
  rw [lastExponent]
  omega

/-- Leaving digits off by rounding adds half a unit at most, which stays below the power of two. -/
theorem divEven_mul_lt {k : Nat} (hle : exponent + k ≤ 971)
    (hlt : (mantissa : ℚ) * 2 ^ exponent < ceiling) :
    (divEven mantissa (2 ^ k) : ℚ) * 2 ^ (exponent + k) < 2 ^ (1024 : Int) := by
  have hquotient : (mantissa : ℚ) / (2 ^ k : Nat) * 2 ^ (exponent + k) = mantissa * 2 ^ exponent := by
    rw [zpow_add₀ (by norm_num), zpow_natCast, Nat.cast_pow, Nat.cast_ofNat]
    field_simp
  have hhalf : 1 / 2 * (2 : ℚ) ^ (exponent + k) ≤ 2 ^ (970 : Int) := by
    have := two_zpow_le (show exponent + k - 1 ≤ 970 by omega)
    rw [zpow_sub_one₀ (by norm_num)] at this
    linarith
  have hnear := (divEven_near mantissa (Nat.two_pow_pos k)).2
  calc (divEven mantissa (2 ^ k) : ℚ) * 2 ^ (exponent + k)
      ≤ (mantissa / (2 ^ k : Nat) + 1 / 2) * 2 ^ (exponent + k) :=
        mul_le_mul_of_nonneg_right hnear (two_zpow_pos _).le
    _ = mantissa * 2 ^ exponent + 1 / 2 * 2 ^ (exponent + k) := by rw [add_mul, hquotient]
    _ < ceiling + 2 ^ (970 : Int) := add_lt_add_of_lt_of_le hlt hhalf
    _ = 2 ^ (1024 : Int) := by rw [ceiling_cast, sub_add_cancel]

/-- **What lies below the ceiling is rounded to a finite float.** -/
theorem isFinite_round (hpos : 0 < mantissa) (hle : exponent ≤ 971)
    (hlt : (mantissa : ℚ) * 2 ^ exponent < ceiling) (sign : Sign) :
    (Float.Model.pack (roundWithAccuracy Format.binary64 sign mantissa exponent .exact)).unpack.isFinite =
      true := by
  obtain ⟨r, e, he, hr, hround⟩ := roundWithAccuracy_exact sign mantissa exponent
  have hlast := lastExponent_le hpos (hlt.trans ceiling_lt)
  have he' : e = exponent + (lastExponent mantissa exponent - exponent).toNat := by omega
  -- what rounding makes of the mantissa may be one digit longer, and is looked at once more
  have hlast' : lastExponent r e ≤ 971 := by
    rcases Nat.eq_zero_or_pos r with hzero | hrpos
    · rw [hzero, lastExponent, Nat.log2_zero]
      omega
    · refine lastExponent_le hrpos ?_
      rw [hr, he']
      exact divEven_mul_lt (by omega) hlt
  rw [hround]
  split
  · cases sign <;> rfl
  · rw [isFinite_pack_iff]
    omega

/-- The last digit that is kept of a number that is too large is that of the largest floats, or a larger
one. -/
theorem le_lastExponent (hmore : exponent ≤ lastExponent mantissa exponent)
    (hle : (ceiling : ℚ) ≤ (mantissa : ℚ) * 2 ^ exponent) : 971 ≤ lastExponent mantissa exponent := by
  have hmore' : exponent ≤ lastExponent (mantissa / 1) exponent := by rwa [Nat.div_one]
  have hupper := (bounds_lastExponent Nat.one_pos hmore').1
  rw [Nat.cast_one, div_one, Nat.div_one] at hupper
  have hpow : (2 : ℚ) ^ (1023 : Int) < 2 ^ (53 + lastExponent mantissa exponent) :=
    le_ceiling.trans_lt (hle.trans_lt hupper)
  have := (zpow_lt_zpow_iff_right₀ (by norm_num : (1 : ℚ) < 2)).1 hpow
  omega

/-- Rounded to the digits of the largest floats, a number that is too large gives the power of two
behind them. -/
theorem le_divEven_of_ceiling_le {k : Nat} (hlast : exponent + k = 971)
    (hle : (ceiling : ℚ) ≤ (mantissa : ℚ) * 2 ^ exponent) : 2 ^ 53 ≤ divEven mantissa (2 ^ k) := by
  refine le_divEven (by positivity) (by decide) ?_
  have hexp : (2 : ℚ) ^ exponent * 2 ^ k = 2 ^ (970 : Int) * 2 := by
    rw [← zpow_natCast, ← zpow_add₀ (by norm_num), hlast, ← zpow_add_one₀ (by norm_num)]
    norm_num
  have hbig : (2 : ℚ) ^ (1024 : Int) = 2 ^ (970 : Int) * 2 ^ 54 := zpow_add₀ (by norm_num) 970 54
  have hscaled : (2 : ℚ) ^ (970 : Int) * (2 ^ 54 * 2 ^ k) ≤
      2 ^ (970 : Int) * (2 * mantissa + 2 ^ k) := by
    have := mul_le_mul_of_nonneg_right hle (pow_nonneg zero_le_two k : (0 : ℚ) ≤ 2 ^ k)
    rw [ceiling_cast, hbig, mul_assoc, hexp] at this
    linarith
  have hnat := le_of_mul_le_mul_left hscaled (two_zpow_pos 970)
  have : 2 ^ 54 * 2 ^ k ≤ 2 * mantissa + 2 ^ k := by exact_mod_cast hnat
  omega

/-- Of a mantissa that is long enough all digits are kept that can be. -/
theorem le_divEven_of_log2 {k : Nat} (h : mantissa.log2 = 52 + k) :
    2 ^ 52 ≤ divEven mantissa (2 ^ k) := by
  have hden := Nat.two_pow_pos k
  refine le_divEven hden (by decide) ?_
  have hne : mantissa ≠ 0 := by
    rintro rfl
    rw [Nat.log2_zero] at h
    omega
  have := Nat.log2_self_le hne
  rw [← Nat.pow_add, ← h]
  omega

/-- **What does not lie below the ceiling is not rounded to a finite float.** -/
theorem isFinite_round_of_le (hlong : 2 ^ 52 ≤ mantissa)
    (hle : (ceiling : ℚ) ≤ (mantissa : ℚ) * 2 ^ exponent) (sign : Sign) :
    (Float.Model.pack (roundWithAccuracy Format.binary64 sign mantissa exponent .exact)).unpack.isFinite =
      false := by
  obtain ⟨r, e, he, hr, hround⟩ := roundWithAccuracy_exact sign mantissa exponent
  have hlog : 52 ≤ mantissa.log2 := (Nat.le_log2 (by omega)).2 hlong
  have hmore : exponent ≤ lastExponent mantissa exponent := by
    rw [lastExponent]
    omega
  have hlarge := le_lastExponent hmore hle
  rw [max_eq_left hmore] at he
  subst he
  generalize hk : (lastExponent mantissa exponent - exponent).toNat = k at hr
  have hdigits : mantissa.log2 = 52 + k := by
    rw [lastExponent] at hk hlarge
    omega
  have hfull : 52 ≤ r.log2 := by
    have hlow := le_divEven_of_log2 hdigits
    rw [← hr] at hlow
    exact (Nat.le_log2 (by omega)).2 hlow
  -- beside the largest floats the mantissa has become one digit longer
  have hcarry : lastExponent mantissa exponent = 971 → 53 ≤ r.log2 := by
    intro hlast
    have hlow := le_divEven_of_ceiling_le (k := k) (by omega) hle
    rw [← hr] at hlow
    exact (Nat.le_log2 (by omega)).2 hlow
  have hlast : 972 ≤ lastExponent r (lastExponent mantissa exponent) := by
    rw [lastExponent]
    rcases hlarge.eq_or_lt with heq | hlt
    · have := hcarry heq.symm
      omega
    · omega
  rw [hround]
  split
  · rename_i hzero
    have hshift : (lastExponent r (lastExponent mantissa exponent) -
        lastExponent mantissa exponent).toNat = r.log2 - 52 := by
      rw [lastExponent]
      omega
    have hne : r ≠ 0 := by
      rintro rfl
      rw [Nat.log2_zero] at hfull
      omega
    have hlow : 2 ^ (r.log2 - 52) ≤ r :=
      (Nat.pow_le_pow_right (by decide) (by omega)).trans (Nat.log2_self_le hne)
    rw [hshift, Nat.div_eq_zero_iff] at hzero
    rcases hzero with hzero | hlt
    · exact absurd hzero (Nat.two_pow_pos _).ne'
    · exact absurd hlow (Nat.not_le.2 hlt)
  · rw [Bool.eq_false_iff, ne_eq, isFinite_pack_iff]
    omega

end Rounding

/-! ### Integers as floats -/

/-- The opposite of a float is finite if the float is. -/
theorem isFinite_neg (x : Float) : (-x).isFinite = x.isFinite := by
  show (Float.Model.pack x.toModel.unpack.neg).unpack.isFinite = x.toModel.unpack.isFinite
  cases hx : x.toModel.unpack with
  | notANumber => rfl
  | infinity sign | zero sign => cases sign <;> rfl
  | finite sign m e hpos =>
    have hc := canonical_of_unpack hx
    rw [UnpackedFloat.neg, unpack_pack hc]
    rfl

/-- A product of mantissas and exponents is rounded once. -/
theorem mul_positive {m₁ m₂ : Nat} {e₁ e₂ : Int} (h₁ : 0 < m₁) (h₂ : 0 < m₂) (sign : Sign) :
    UnpackedFloat.mul Format.binary64 (.finite sign m₁ e₁ h₁) (.finite .positive m₂ e₂ h₂) =
      roundWithAccuracy Format.binary64 sign (m₁ * m₂) (e₁ + e₂) .exact := by
  cases sign <;> rfl

/-- An integer is rounded with so many digits more that none is lost before. -/
theorem ofScientific_integer {n : Nat} (hpos : n ≠ 0) :
    UnpackedFloat.ofScientific Format.binary64 n 0 =
      roundWithAccuracy Format.binary64 .positive (n * 2 ^ 53) (-53) .exact := by
  have hnotlarge : ¬ (0 : Int) > 2 ^ Format.binary64.exponentBits := by decide
  have hnotsmall : ¬ (0 : Int) < -(2 ^ Format.binary64.exponentBits + n.log2) := by
    show ¬ (0 : Int) < -(2 ^ 11 + n.log2)
    omega
  have hbits : Format.binary64.mantissaBits = 53 := rfl
  rw [UnpackedFloat.ofScientific, dif_neg hpos, if_neg hnotlarge, if_neg hnotsmall,
    if_pos (Int.le_refl 0), mul_positive]
  simp only [hbits, Nat.shiftLeft_eq, Int.toNat_zero, Nat.pow_zero, Nat.mul_one, Int.add_zero]
  rfl

theorem isFinite_ofNat_iff (n : Nat) : (Float.ofNat n).isFinite = true ↔ n < ceiling := by
  show (Float.ofScientific n false 0).isFinite = true ↔ _
  rcases Nat.lt_or_ge n (2 ^ 53) with hlt | hge
  · -- a small number is a float
    have hsmall : 2 ^ 53 ≤ ceiling := by decide +kernel
    refine iff_of_true ?_ (hlt.trans_le hsmall)
    rcases Nat.eq_zero_or_pos n with rfl | hpos
    · rfl
    · obtain ⟨m, e, hc, -, hvalue⟩ := ofNat_finite hpos hlt
      have hself := roundsTo_self hc
      rw [hvalue, ← mul_one (n : ℚ), ← zpow_zero (10 : ℚ)] at hself
      show (ofDecimal false n 0).toModel.unpack.isFinite = true
      rw [ofDecimal_unpack hc hself]
      rfl
  · -- a large one is rounded
    have hvalue : ((n * 2 ^ 53 : Nat) : ℚ) * 2 ^ (-53 : Int) = n := by
      rw [zpow_neg]
      push_cast
      field_simp
    rw [Float.ofScientific, dif_neg (by omega)]
    show (Float.Model.pack (UnpackedFloat.ofScientific Format.binary64 n 0)).unpack.isFinite = true ↔ _
    rw [ofScientific_integer (by omega)]
    rcases Nat.lt_or_ge n ceiling with hlt | hle
    · refine iff_of_true (isFinite_round (by positivity) (by decide) ?_ _) hlt
      rw [hvalue]
      exact_mod_cast hlt
    · refine iff_of_false ?_ (Nat.not_lt.2 hle)
      rw [isFinite_round_of_le (by omega)]
      · simp
      · rw [hvalue]
        exact_mod_cast hle

/-- **An integer can be made a float exactly if it lies below the ceiling.** -/
theorem isSome_ofInt?_iff (n : Int) : (ofInt? n).isSome = true ↔ n.natAbs < ceiling := by
  have hfinite : (Float.ofInt n).isFinite = true ↔ n.natAbs < ceiling := by
    cases n with
    | ofNat k => exact isFinite_ofNat_iff k
    | negSucc k =>
      show (-(Float.ofNat k.succ)).isFinite = true ↔ k.succ < ceiling
      rw [isFinite_neg, isFinite_ofNat_iff]
  rw [← hfinite, ofInt?]
  split
  · rename_i h
    simp [h]
  · rename_i h
    simp [h]

/-- Then it is the nearest float. -/
theorem ofInt?_eq {n : Int} (h : n.natAbs < ceiling) : ofInt? n = some (Float.ofInt n) := by
  have hsome := (isSome_ofInt?_iff n).2 h
  rw [ofInt?] at hsome ⊢
  split
  · rfl
  · rename_i hne
    simp [hne] at hsome

theorem ofInt?_eq_none {n : Int} (h : ceiling ≤ n.natAbs) : ofInt? n = none := by
  rw [← Option.not_isSome_iff_eq_none, isSome_ofInt?_iff]
  exact Nat.not_lt.2 h

/-! ### Numbers that come from floats -/

/-- A float lies below the ceiling. -/
theorem Canonical.lt_ceiling {m : Nat} {e : Int} (hc : Canonical m e) :
    (m : ℚ) * 2 ^ e < ceiling := by
  have hm : (m : ℚ) ≤ 2 ^ 53 - 1 := by
    have : (m : ℚ) + 1 ≤ 2 ^ 53 := by exact_mod_cast hc.lt
    linarith
  have hunit := two_zpow_pos 970
  have hlast : (2 : ℚ) ^ (971 : Int) = 2 ^ (970 : Int) * 2 := zpow_add_one₀ (by norm_num) 970
  have hbig : (2 : ℚ) ^ (1024 : Int) = 2 ^ (970 : Int) * 2 ^ 54 := zpow_add₀ (by norm_num) 970 54
  calc (m : ℚ) * 2 ^ e ≤ (2 ^ 53 - 1) * 2 ^ (971 : Int) :=
        mul_le_mul hm (two_zpow_le hc.most) (two_zpow_pos e).le (by norm_num)
    _ = 2 ^ (970 : Int) * (2 ^ 54 - 2) := by rw [hlast]; ring
    _ < 2 ^ (970 : Int) * (2 ^ 54 - 1) := mul_lt_mul_of_pos_left (by norm_num) hunit
    _ = ceiling := by rw [ceiling_cast, hbig]; ring

/-- **The integer part of a float lies below the ceiling.** -/
theorem natAbs_lt_of_truncate? {x : Float} {n : Int} (h : truncate? x = some n) :
    n.natAbs < ceiling := by
  have hpart : ∀ (negative : Bool) (m : Nat) (e : Int), (m : ℚ) * 2 ^ e < ceiling →
      (if negative then -((scaled m e).1 / (scaled m e).2 : Nat)
        else ((scaled m e).1 / (scaled m e).2 : Nat) : Int).natAbs < ceiling := by
    intro negative m e hlt
    have hnat : (scaled m e).1 / (scaled m e).2 < ceiling := by
      have hle : (((scaled m e).1 / (scaled m e).2 : Nat) : ℚ) ≤
          (scaled m e).1 / (scaled m e).2 := Nat.cast_div_le
      rw [scaled_value] at hle
      exact_mod_cast hle.trans_lt hlt
    cases negative with
    | false => exact hnat
    | true => rwa [if_pos rfl, Int.natAbs_neg]
  rw [truncate?, Exact.ofFloat] at h
  cases hx : x.toModel.unpack with
  | notANumber | infinity sign => simp [hx] at h
  | zero sign =>
    rw [hx] at h
    cases h
    exact hpart _ 0 0 (by rw [Nat.cast_zero, zero_mul]; exact (two_zpow_pos 1023).trans_le le_ceiling)
  | finite sign m e hpos =>
    rw [hx] at h
    cases h
    exact hpart _ m e (canonical_of_unpack hx).lt_ceiling

/-- A finite float has an integer part. -/
theorem exists_truncate? {x : Float} (h : x.isFinite = true) : ∃ n, truncate? x = some n := by
  change x.toModel.unpack.isFinite = true at h
  rw [truncate?, Exact.ofFloat]
  cases hx : x.toModel.unpack with
  | notANumber | infinity sign => simp [hx, UnpackedFloat.isFinite] at h
  | zero sign | finite sign m e hpos => exact ⟨_, rfl⟩

/-- A float between zero and one, both included. -/
def IsShare (y : Float) : Prop :=
  y.toModel.unpack = .zero .positive ∨
    ∃ m e, ∃ hpos : 0 < m, y.toModel.unpack = .finite .positive m e hpos ∧ (m : ℚ) * 2 ^ e ≤ 1

/-- **A share of a finite float is finite.** -/
theorem IsShare.isFinite_mul {x y : Float} (hy : IsShare y) (hx : x.isFinite = true) :
    (x * y).isFinite = true := by
  change x.toModel.unpack.isFinite = true at hx
  show (Float.Model.pack (UnpackedFloat.mul Format.binary64 x.toModel.unpack
    y.toModel.unpack)).unpack.isFinite = true
  have hzero : ∀ sign, (Float.Model.pack (.zero sign)).unpack.isFinite = true := by
    intro sign
    cases sign <;> rfl
  cases hu : x.toModel.unpack with
  | notANumber | infinity sign => simp [hu, UnpackedFloat.isFinite] at hx
  | zero sign =>
    rcases hy with hy | ⟨m, e, hpos, hy, -⟩
    all_goals
      rw [hy]
      exact hzero _
  | finite sign m₁ e₁ h₁ =>
    rcases hy with hy | ⟨m₂, e₂, h₂, hy, hone⟩
    · rw [hy]
      exact hzero _
    · have hc := canonical_of_unpack hu
      -- the share has no digit above the point
      have he : e₂ ≤ 0 := by
        have hm : (1 : ℚ) ≤ m₂ := by exact_mod_cast h₂
        have hle : (2 : ℚ) ^ e₂ ≤ 2 ^ (0 : Int) := by
          rw [zpow_zero]
          exact (le_mul_of_one_le_left (two_zpow_pos e₂).le hm).trans hone
        exact (zpow_le_zpow_iff_right₀ (by norm_num : (1 : ℚ) < 2)).1 hle
      have hvalue : ((m₁ * m₂ : Nat) : ℚ) * 2 ^ (e₁ + e₂) ≤ m₁ * 2 ^ e₁ := by
        rw [zpow_add₀ (by norm_num), Nat.cast_mul, mul_mul_mul_comm]
        exact mul_le_of_le_one_right (by positivity) hone
      rw [hy, mul_positive]
      have := hc.most
      exact isFinite_round (Nat.mul_pos h₁ h₂) (by omega) (hvalue.trans_lt hc.lt_ceiling) sign

/-! ### Comparing with zero and one -/

theorem lt_iff_compare {x y : Float} :
    x < y ↔ x.toModel.unpack.compare y.toModel.unpack = some .lt := by
  show decide (x.toModel < y.toModel) = true ↔ _
  rw [decide_eq_true_iff]
  exact beq_iff_eq

theorem unpack_zero : (0.0 : Float).toModel.unpack = .zero .positive := by
  with_unfolding_all rfl

theorem unpack_one : (1.0 : Float).toModel.unpack = .finite .positive (2 ^ 52) (-52) (by decide) := by
  with_unfolding_all rfl

theorem isShare_zero : IsShare 0.0 := .inl unpack_zero

theorem isShare_one : IsShare 1.0 := by
  refine .inr ⟨_, _, _, unpack_one, ?_⟩
  rw [zpow_neg]
  norm_num

/-- **A float between zero and one is a share.** -/
theorem isShare_of_lt {x : Float} (hpos : x > 0.0) (hlt : x < 1.0) : IsShare x := by
  rw [gt_iff_lt, lt_iff_compare, unpack_zero] at hpos
  rw [lt_iff_compare, unpack_one] at hlt
  cases hx : x.toModel.unpack with
  | notANumber | zero sign => simp [hx, UnpackedFloat.compare] at hpos
  | infinity sign => cases sign <;> simp [hx, UnpackedFloat.compare] at hpos hlt
  | finite sign m e h =>
    have hc := canonical_of_unpack hx
    rw [hx] at hpos hlt
    cases sign with
    | negative => simp [UnpackedFloat.compare] at hpos
    | positive =>
      refine .inr ⟨m, e, h, hx, ?_⟩
      have hcompare : (compare e (-52)).then (compare m (2 ^ 52)) = .lt := Option.some.inj hlt
      rw [Ordering.then_eq_lt, Int.compare_eq_lt, Int.compare_eq_eq, Nat.compare_eq_lt] at hcompare
      have hone : (2 : ℚ) ^ (53 : Int) * 2 ^ (-53 : Int) = 1 := by
        rw [← zpow_add₀ (by norm_num)]
        norm_num
      rcases hcompare with he | ⟨rfl, hm⟩
      · have hm : (m : ℚ) ≤ 2 ^ (53 : Int) := by exact_mod_cast hc.lt.le
        calc (m : ℚ) * 2 ^ e ≤ 2 ^ (53 : Int) * 2 ^ (-53 : Int) :=
              mul_le_mul hm (two_zpow_le (by omega)) (two_zpow_pos e).le (by positivity)
          _ = 1 := hone
      · have hm : (m : ℚ) ≤ 2 ^ (52 : Int) := by exact_mod_cast hm.le
        calc (m : ℚ) * 2 ^ (-52 : Int) ≤ 2 ^ (52 : Int) * 2 ^ (-52 : Int) :=
              mul_le_mul_of_nonneg_right hm (two_zpow_pos _).le
          _ = 1 := by rw [← zpow_add₀ (by norm_num)]; norm_num

end ChartScript.Number
