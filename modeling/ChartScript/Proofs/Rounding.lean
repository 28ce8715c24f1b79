import ChartScript.Number.Digits
import Mathlib

/-!
# Rounding to the nearest float

The float model of the core library rounds a number by shifting: the mantissa is shifted until no more
digits are left than are kept, what falls out is remembered in two bits, and the result is shifted once
more, in case rounding has brought a digit. The whole point is to say this without shifts. A number
rounds to a float if it lies within the bounds of the float (`ChartScript.Number.RoundsTo`), and then
the shifts end at its mantissa and exponent (`ChartScript.Number.roundWithAccuracy_eq`).

A shift divides a fraction (`ChartScript.Number.shiftRight_extended`), so the first one comes to
rounding a quotient. How many digits are kept is known from the float, but for the lower bound of a
power of two, where one digit more is kept than the float has.
-/

namespace ChartScript.Number

open Float.Model Float.Model.UnpackedFloat

/-! ### Rounding a quotient -/

/-- **The nearest integer**: an integer within a half of the quotient, and on a half only if it is
even. -/
theorem divEven_eq_of_near {num den n : Nat} (hden : 0 < den) (hlow : (n : ℚ) - 1 / 2 ≤ num / den)
    (hhigh : (num : ℚ) / den ≤ n + 1 / 2)
    (htie : n % 2 = 0 ∨ (n : ℚ) - 1 / 2 < num / den ∧ (num : ℚ) / den < n + 1 / 2) :
    divEven num den = n := by
  have hden' : (0 : ℚ) < den := by exact_mod_cast hden
  rw [le_div_iff₀ hden'] at hlow
  rw [div_le_iff₀ hden'] at hhigh
  rw [lt_div_iff₀ hden', div_lt_iff₀ hden'] at htie
  have hlow' : 2 * (n * den) ≤ 2 * num + den := by
    have : (2 * (n * den) : ℚ) ≤ 2 * num + den := by linarith
    exact_mod_cast this
  have hhigh' : 2 * num ≤ 2 * (n * den) + den := by
    have : (2 * num : ℚ) ≤ 2 * (n * den) + den := by linarith
    exact_mod_cast this
  have htie' : n % 2 = 0 ∨ 2 * (n * den) < 2 * num + den ∧ 2 * num < 2 * (n * den) + den := by
    refine htie.imp_right fun ⟨h, h'⟩ => ⟨?_, ?_⟩
    · have : (2 * (n * den) : ℚ) < 2 * num + den := by linarith
      exact_mod_cast this
    · have : (2 * num : ℚ) < 2 * (n * den) + den := by linarith
      exact_mod_cast this
  -- the quotient is the integer or the one below it
  have hmod := Nat.mod_lt num hden
  have hdiv : num = num / den * den + num % den := (Nat.div_add_mod' num den).symm
  have hle : num / den ≤ n := by
    by_contra hgt
    have : (n + 1) * den ≤ num / den * den := Nat.mul_le_mul_right den (by omega)
    rw [Nat.add_mul, Nat.one_mul] at this
    omega
  have hge : n ≤ num / den + 1 := by
    by_contra hlt
    have : (num / den + 2) * den ≤ n * den := Nat.mul_le_mul_right den (by omega)
    rw [Nat.add_mul] at this
    omega
  rw [divEven]
  rcases Nat.eq_or_lt_of_le hle with heq | hlt
  · rw [heq] at hdiv ⊢
    split
    · rfl
    · split <;> omega
  · have heq : n = num / den + 1 := by omega
    have hprod : n * den = num / den * den + den := by rw [heq, Nat.add_mul, Nat.one_mul]
    split
    · omega
    · split <;> omega

/-! ### Shifting a mantissa -/

/-- The integer part of a fraction, with what is known of the rest. -/
def extended (num den : Nat) : ExtendedMantissa :=
  ⟨num / den, decide (2 * num / den % 2 ≠ 0), decide (2 * num % den ≠ 0)⟩

/-- Twice a number over another one. -/
theorem twice_div_mod (num : Nat) {den : Nat} (hden : 0 < den) :
    (2 * (num % den) < den ∧ 2 * num / den = 2 * (num / den) ∧ 2 * num % den = 2 * (num % den)) ∨
      (den ≤ 2 * (num % den) ∧ 2 * num / den = 2 * (num / den) + 1 ∧
        2 * num % den = 2 * (num % den) - den) := by
  have hmod := Nat.mod_lt num hden
  have hdiv : 2 * num = den * (2 * (num / den)) + 2 * (num % den) := by
    have := Nat.div_add_mod num den
    calc 2 * num = 2 * (den * (num / den) + num % den) := by rw [this]
      _ = den * (2 * (num / den)) + 2 * (num % den) := by ring
  rcases Nat.lt_or_ge (2 * (num % den)) den with hlt | hge
  · refine .inl ⟨hlt, ?_, ?_⟩
    · rw [hdiv, Nat.mul_add_div hden, Nat.div_eq_of_lt hlt, Nat.add_zero]
    · rw [hdiv, Nat.mul_add_mod, Nat.mod_eq_of_lt hlt]
  · have hsplit : 2 * num = den * (2 * (num / den) + 1) + (2 * (num % den) - den) := by
      rw [hdiv, Nat.mul_add, Nat.mul_one]
      omega
    have hrest : 2 * (num % den) - den < den := by omega
    refine .inr ⟨hge, ?_, ?_⟩
    · rw [hsplit, Nat.mul_add_div hden, Nat.div_eq_of_lt hrest, Nat.add_zero]
    · rw [hsplit, Nat.mul_add_mod, Nat.mod_eq_of_lt hrest]

theorem ofMantissaAndAccuracy_eq {num den : Nat} (hden : 0 < den) :
    ExtendedMantissa.ofMantissaAndAccuracy (num / den) (accuracyOfFraction (num % den) den) =
      extended num den := by
  rw [accuracyOfFraction, extended]
  rcases twice_div_mod num hden with ⟨hlt, hdiv, hmod⟩ | ⟨hge, hdiv, hmod⟩
  · rw [hdiv, hmod]
    split
    · rename_i hzero
      simp [ExtendedMantissa.ofMantissaAndAccuracy, hzero]
    · rename_i hne
      rw [show compare (2 * (num % den)) den = .lt from Nat.compare_eq_lt.2 hlt]
      simp [ExtendedMantissa.ofMantissaAndAccuracy, hne]
  · rw [hdiv, hmod, if_neg (by omega)]
    rcases Nat.eq_or_lt_of_le hge with heq | hgt
    · rw [show compare (2 * (num % den)) den = .eq from Nat.compare_eq_eq.2 heq.symm]
      simp [ExtendedMantissa.ofMantissaAndAccuracy, ← heq]
    · rw [show compare (2 * (num % den)) den = .gt from Nat.compare_eq_gt.2 hgt]
      simp [ExtendedMantissa.ofMantissaAndAccuracy]
      omega

theorem shiftRightOne_extended {num den : Nat} (hden : 0 < den) :
    (extended num den).shiftRightOne = extended num (2 * den) := by
  have hquotient : 2 * num / (2 * den) = num / den := Nat.mul_div_mul_left _ _ (by decide)
  have hrest : 2 * num % (2 * den) = 2 * (num % den) := Nat.mul_mod_mul_left _ _ _
  have hhalf : num / den / 2 = num / (2 * den) := by rw [Nat.div_div_eq_div_mul, Nat.mul_comm]
  have hround : (num / den % 2 != 0) = decide (num / den % 2 ≠ 0) := by
    rw [Bool.eq_iff_iff]
    simp
  have hsticky : (decide (2 * num / den % 2 ≠ 0) || decide (2 * num % den ≠ 0)) =
      decide (2 * (num % den) ≠ 0) := by
    rw [Bool.eq_iff_iff]
    simp only [Bool.or_eq_true, decide_eq_true_eq]
    rcases twice_div_mod num hden with ⟨hlt, hdiv, hmod⟩ | ⟨hge, hdiv, hmod⟩ <;> omega
  rw [ExtendedMantissa.shiftRightOne, extended, extended, hquotient, hrest, hhalf, hround, hsticky]

/-- **Shifting a mantissa divides the fraction.** -/
theorem shiftRight_extended {num den : Nat} (hden : 0 < den) (k : Nat) :
    extended num den >>> k = extended num (den * 2 ^ k) := by
  show k.repeat ExtendedMantissa.shiftRightOne (extended num den) = _
  induction k with
  | zero => simp [Nat.repeat]
  | succ k ih =>
    rw [Nat.repeat, ih, shiftRightOne_extended (by positivity)]
    congr 1
    ring

/-- **Rounding a mantissa rounds the fraction.** -/
theorem roundedMantissa_extended {num den : Nat} (hden : 0 < den) :
    (extended num den).roundedMantissa = divEven num den := by
  rw [ExtendedMantissa.roundedMantissa, extended, divEven]
  rcases twice_div_mod num hden with ⟨hlt, hdiv, hmod⟩ | ⟨hge, hdiv, hmod⟩
  · have hround : decide (2 * num / den % 2 ≠ 0) = false := by simp [hdiv]
    rw [hround]
    simp only [if_pos hlt]
    rcases decide (2 * num % den ≠ 0) <;> rfl
  · have hround : decide (2 * num / den % 2 ≠ 0) = true := by simp [hdiv, Nat.add_mod]
    rw [hround]
    simp only [if_neg (Nat.not_lt.2 hge)]
    rcases Nat.eq_or_lt_of_le hge with heq | hgt
    · rw [if_neg (by omega), show decide (2 * num % den ≠ 0) = false by simp [hmod]; omega]
      rfl
    · rw [if_pos hgt, show decide (2 * num % den ≠ 0) = true by simp [hmod]; omega]
      rfl

/-! ### The exponent of a rounded number -/

/-- The exponent of the last digit that is kept. -/
def lastExponent (mantissa : Nat) (exponent : Int) : Int :=
  max (mantissa.log2 + exponent - 52) (-1074)

theorem targetExponent_eq (mantissa : Nat) (exponent : Int) :
    Format.binary64.targetExponent (totalExponent mantissa exponent) =
      lastExponent mantissa exponent := by
  simp only [Format.targetExponent, totalExponent, Format.mantissaBits, Format.minExponent,
    lastExponent]
  norm_num
  omega

/-- A fraction that is shifted until no more digits are left than are kept. -/
theorem shiftToTargetExponent_eq {num den : Nat} (hden : 0 < den) (exponent : Int) :
    shiftToTargetExponent Format.binary64 (num / den) exponent
        (accuracyOfFraction (num % den) den) =
      (extended num (den * 2 ^ (lastExponent (num / den) exponent - exponent).toNat),
        exponent + (lastExponent (num / den) exponent - exponent).toNat) := by
  rw [shiftToTargetExponent, targetExponent_eq, shiftToExponent]
  simp only [ofMantissaAndAccuracy_eq hden, shiftRight_extended hden]

/-- The same of an integer. -/
theorem shiftToTargetExponent_exact (mantissa : Nat) (exponent : Int) :
    shiftToTargetExponent Format.binary64 mantissa exponent .exact =
      (extended mantissa (2 ^ (lastExponent mantissa exponent - exponent).toNat),
        exponent + (lastExponent mantissa exponent - exponent).toNat) := by
  have h := @shiftToTargetExponent_eq mantissa 1 Nat.one_pos exponent
  rwa [Nat.div_one, Nat.mod_one, Nat.one_mul] at h

/-! ### Floats and what rounds to them -/

/-- The mantissa and the exponent of a positive float. -/
structure Canonical (mantissa : Nat) (exponent : Int) : Prop where
  /-- Something is left of it. -/
  pos : 0 < mantissa
  /-- There are no more digits than are kept. -/
  lt : mantissa < 2 ^ 53
  /-- The last digit is not too small. -/
  least : -1074 ≤ exponent
  /-- The number is not too large. -/
  most : exponent ≤ 971
  /-- All digits that can be kept are kept. -/
  full : 2 ^ 52 ≤ mantissa ∨ exponent = -1074

/-- **A number rounds to a float**: it lies within the bounds of the float, and on a bound only if the
mantissa is even. -/
def RoundsTo (v : ℚ) (mantissa : Nat) (exponent : Int) : Prop :=
  ((quarterBounds .double mantissa exponent).1 : ℚ) * 2 ^ (exponent - 2) ≤ v ∧
    v ≤ ((quarterBounds .double mantissa exponent).2 : ℚ) * 2 ^ (exponent - 2) ∧
    (mantissa % 2 = 0 ∨
      ((quarterBounds .double mantissa exponent).1 : ℚ) * 2 ^ (exponent - 2) < v ∧
        v < ((quarterBounds .double mantissa exponent).2 : ℚ) * 2 ^ (exponent - 2))

theorem two_zpow_pos (e : Int) : (0 : ℚ) < 2 ^ e := zpow_pos (by norm_num) e

theorem two_zpow_le {e e' : Int} (h : e ≤ e') : (2 : ℚ) ^ e ≤ 2 ^ e' :=
  zpow_le_zpow_right₀ (by norm_num) h

section RoundsTo

variable {v : ℚ} {mantissa : Nat} {exponent : Int} (hc : Canonical mantissa exponent)
  (h : RoundsTo v mantissa exponent)

include hc h

/-- The bounds, in units of the last digit. A bound is a half away, or nearer. -/
theorem RoundsTo.near : (mantissa : ℚ) - 1 / 2 ≤ v / 2 ^ exponent ∧
    v / 2 ^ exponent ≤ mantissa + 1 / 2 ∧
    (mantissa % 2 = 0 ∨ (mantissa : ℚ) - 1 / 2 < v / 2 ^ exponent ∧
      v / 2 ^ exponent < mantissa + 1 / 2) ∧
    (mantissa = 2 ^ 52 → exponent ≠ -1074 → (mantissa : ℚ) - 1 / 4 ≤ v / 2 ^ exponent) := by
  have hunit := two_zpow_pos exponent
  have hquarter : (2 : ℚ) ^ (exponent - 2) = 2 ^ exponent / 4 := by
    rw [zpow_sub₀ (by norm_num)]
    norm_num
  obtain ⟨hlow, hhigh, htie⟩ := h
  rw [hquarter] at hlow hhigh htie
  rw [le_div_iff₀ hunit, div_le_iff₀ hunit, lt_div_iff₀ hunit, div_lt_iff₀ hunit, le_div_iff₀ hunit]
  have hpos := hc.pos
  rw [quarterBounds] at hlow hhigh htie
  by_cases hedge : mantissa = 2 ^ Precision.double.bits ∧ exponent ≠ Precision.double.least
  · rw [if_pos hedge] at hlow hhigh htie
    simp only [Nat.cast_sub (show 1 ≤ 4 * mantissa by omega)] at hlow hhigh htie
    push_cast at hlow hhigh htie
    refine ⟨by linarith, by linarith, ?_, fun _ _ => by linarith⟩
    rw [hedge.1]
    exact .inl (by decide)
  · rw [if_neg hedge] at hlow hhigh htie
    simp only [Nat.cast_sub (show 2 ≤ 4 * mantissa by omega)] at hlow hhigh htie
    push_cast at hlow hhigh htie
    refine ⟨by linarith, by linarith, htie.imp_right fun ⟨h, h'⟩ => ⟨by linarith, by linarith⟩, ?_⟩
    exact fun hm he => absurd ⟨hm, he⟩ hedge

/-- What rounds to a positive float is positive. -/
theorem RoundsTo.pos : 0 < v := by
  obtain ⟨hlow, -⟩ := h.near hc
  have hunit := two_zpow_pos exponent
  rw [le_div_iff₀ hunit] at hlow
  have hm : (1 : ℚ) ≤ mantissa := by exact_mod_cast hc.pos
  have : (0 : ℚ) < (mantissa - 1 / 2) * 2 ^ exponent := by
    apply mul_pos _ hunit
    linarith
  linarith

/-- It is less than the power of two above the float. -/
theorem RoundsTo.lt : v < 2 ^ (53 + exponent) := by
  obtain ⟨-, hhigh, -⟩ := h.near hc
  have hunit := two_zpow_pos exponent
  rw [div_le_iff₀ hunit] at hhigh
  have hm : (mantissa : ℚ) + 1 ≤ 2 ^ 53 := by exact_mod_cast hc.lt
  have hbelow : ((mantissa : ℚ) + 1 / 2) * 2 ^ exponent < 2 ^ 53 * 2 ^ exponent :=
    mul_lt_mul_of_pos_right (by linarith) hunit
  rw [zpow_add₀ (by norm_num)]
  exact hhigh.trans_lt hbelow

/-- Where all digits are kept, it is not less than the half of the power of two that the float
reaches. -/
theorem RoundsTo.gt (hfull : 2 ^ 52 ≤ mantissa) : 2 ^ (51 + exponent) < v := by
  obtain ⟨hlow, -⟩ := h.near hc
  have hunit := two_zpow_pos exponent
  rw [le_div_iff₀ hunit] at hlow
  have hm : ((2 : ℚ) ^ 52) ≤ mantissa := by exact_mod_cast hfull
  have hbelow : (2 : ℚ) ^ 51 * 2 ^ exponent < (mantissa - 1 / 2) * 2 ^ exponent :=
    mul_lt_mul_of_pos_right (by linarith) hunit
  rw [zpow_add₀ (by norm_num)]
  exact hbelow.trans_le hlow

end RoundsTo

/-- **Where a fraction that is rounded lies**: it is below a power of two that depends on its exponent
only, and not below the half of it unless the exponent is the least one. -/
theorem bounds_lastExponent {num den : Nat} (hden : 0 < den) {exponent : Int}
    (he : exponent ≤ lastExponent (num / den) exponent) :
    ((num : ℚ) / den * 2 ^ exponent < 2 ^ (53 + lastExponent (num / den) exponent)) ∧
      (lastExponent (num / den) exponent = -1074 ∨
        2 ^ (52 + lastExponent (num / den) exponent) ≤ (num : ℚ) / den * 2 ^ exponent) := by
  have hden' : (0 : ℚ) < den := by exact_mod_cast hden
  have hunit := two_zpow_pos exponent
  have hlast : lastExponent (num / den) exponent =
    max ((num / den).log2 + exponent - 52) (-1074) := rfl
  -- the integer part has so many digits
  have hupper : (num : ℚ) / den < 2 ^ (((num / den).log2 : Int) + 1) := by
    have hlt : num / den < 2 ^ ((num / den).log2 + 1) := Nat.lt_log2_self
    have hnum : num < 2 ^ ((num / den).log2 + 1) * den := (Nat.div_lt_iff_lt_mul hden).1 hlt
    rw [div_lt_iff₀ hden']
    exact_mod_cast hnum
  have hupper' : (num : ℚ) / den * 2 ^ exponent < 2 ^ (((num / den).log2 : Int) + 1 + exponent) := by
    rw [zpow_add₀ (by norm_num)]
    exact mul_lt_mul_of_pos_right hupper hunit
  refine ⟨hupper'.trans_le (two_zpow_le (by omega)), ?_⟩
  rcases Nat.eq_zero_or_pos (num / den) with hzero | hpos
  · rw [hzero] at hlast he ⊢
    simp only [Nat.log2_zero] at hlast
    exact .inl (by omega)
  · refine or_iff_not_imp_left.2 fun hne => ?_
    have hlower : (2 : ℚ) ^ ((num / den).log2 : Int) ≤ (num : ℚ) / den := by
      have hle : 2 ^ (num / den).log2 ≤ num / den := Nat.log2_self_le (by omega)
      have hnum : 2 ^ (num / den).log2 * den ≤ num := (Nat.le_div_iff_mul_le hden).1 hle
      rw [le_div_iff₀ hden']
      exact_mod_cast hnum
    have hexp : 52 + lastExponent (num / den) exponent = ((num / den).log2 : Int) + exponent := by
      omega
    rw [hexp, zpow_add₀ (by norm_num)]
    exact mul_le_mul_of_nonneg_right hlower hunit.le

/-- **The exponent of what rounds to a float** is the exponent of the float, or the one below it if
the float is the power of two between the two. -/
theorem lastExponent_of_roundsTo {num den : Nat} (hden : 0 < den) {exponent : Int}
    (he : exponent ≤ lastExponent (num / den) exponent) {m : Nat} {e : Int} (hc : Canonical m e)
    (h : RoundsTo ((num : ℚ) / den * 2 ^ exponent) m e) :
    lastExponent (num / den) exponent = e ∨
      lastExponent (num / den) exponent = e - 1 ∧ m = 2 ^ 52 ∧ e ≠ -1074 := by
  obtain ⟨hupper, hlower⟩ := bounds_lastExponent hden he
  have hleast : -1074 ≤ lastExponent (num / den) exponent := le_max_right _ _
  have hmin := hc.least
  have hle : lastExponent (num / den) exponent ≤ e := by
    by_contra hgt
    have hlow := hlower.resolve_left (by omega)
    have hlt := hlow.trans_lt (h.lt hc)
    have := (zpow_lt_zpow_iff_right₀ (by norm_num : (1 : ℚ) < 2)).1 hlt
    omega
  rcases eq_or_ne (lastExponent (num / den) exponent) e with heq | hne
  · exact .inl heq
  · have he' : e ≠ -1074 := by omega
    have hfull := hc.full.resolve_right he'
    have hlt := (h.gt hc hfull).trans hupper
    have := (zpow_lt_zpow_iff_right₀ (by norm_num : (1 : ℚ) < 2)).1 hlt
    have hexp : lastExponent (num / den) exponent = e - 1 := by omega
    refine .inr ⟨hexp, ?_, he'⟩
    by_contra hm
    have hm' : (2 : ℚ) ^ 52 + 1 ≤ m := by exact_mod_cast Nat.lt_of_le_of_ne hfull (Ne.symm hm)
    obtain ⟨hlow, -⟩ := h.near hc
    have hunit := two_zpow_pos e
    rw [le_div_iff₀ hunit] at hlow
    have habove : (2 : ℚ) ^ 52 * 2 ^ e < (m - 1 / 2) * 2 ^ e :=
      mul_lt_mul_of_pos_right (by linarith) hunit
    rw [hexp, show 53 + (e - 1) = 52 + e by ring, zpow_add₀ (by norm_num)] at hupper
    exact absurd ((habove.trans_le hlow).trans hupper) (lt_irrefl _)

/-- Rounding is shifting, rounding the mantissa and shifting again. -/
theorem roundWithAccuracy_of_shifts {mantissa : Nat} {exponent e e' : Int} {accuracy : Accuracy}
    {first second : ExtendedMantissa} {m : Nat} (sign : Sign)
    (hfirst : shiftToTargetExponent Format.binary64 mantissa exponent accuracy = (first, e))
    (hsecond : shiftToTargetExponent Format.binary64 first.roundedMantissa e .exact = (second, e'))
    (hm : second.mantissa = m) (hpos : 0 < m) :
    roundWithAccuracy Format.binary64 sign mantissa exponent accuracy = .finite sign m e' hpos := by
  subst hm
  simp only [roundWithAccuracy, hfirst, hsecond]
  rw [dif_neg hpos.ne']

/-- A mantissa that is not too long stays as it is. -/
theorem shiftToTargetExponent_of_lt {m : Nat} {e : Int} (hc : Canonical m e) :
    shiftToTargetExponent Format.binary64 m e .exact = (extended m 1, e) := by
  have hlog : m.log2 < 53 := (Nat.log2_lt hc.pos.ne').2 hc.lt
  have hmin := hc.least
  have hzero : (lastExponent m e - e).toNat = 0 := by
    rw [lastExponent]
    omega
  rw [shiftToTargetExponent_exact, hzero, Nat.pow_zero, Int.natCast_zero, Int.add_zero]

/-- A mantissa that has become one digit too long loses a zero. -/
theorem shiftToTargetExponent_carry {e : Int} (he : -1074 ≤ e) :
    shiftToTargetExponent Format.binary64 (2 ^ 53) e .exact = (extended (2 ^ 53) 2, e + 1) := by
  have hone : (lastExponent (2 ^ 53) e - e).toNat = 1 := by
    rw [lastExponent, Nat.log2_two_pow]
    omega
  rw [shiftToTargetExponent_exact, hone, Nat.pow_one, Int.natCast_one]

/-- **Rounding finds the float that a number rounds to.** -/
theorem roundWithAccuracy_eq {num den : Nat} (hden : 0 < den) {exponent : Int}
    (he : exponent ≤ lastExponent (num / den) exponent) {m : Nat} {e : Int} (hc : Canonical m e)
    (h : RoundsTo ((num : ℚ) / den * 2 ^ exponent) m e) (sign : Sign) :
    roundWithAccuracy Format.binary64 sign (num / den) exponent
      (accuracyOfFraction (num % den) den) = .finite sign m e hc.pos := by
  have hlast := lastExponent_of_roundsTo hden he hc h
  have hupper := (bounds_lastExponent hden he).1
  generalize hl : lastExponent (num / den) exponent = last at he hlast hupper
  obtain ⟨hlow, hhigh, htie, hedge⟩ := h.near hc
  have hshift : ((last - exponent).toNat : Int) = last - exponent := Int.toNat_of_nonneg (by omega)
  have hfirst := @shiftToTargetExponent_eq num _ hden exponent
  rw [hl, hshift, show exponent + (last - exponent) = last by ring] at hfirst
  -- the fraction, in units of the last digit that is kept
  have hfraction : (num : ℚ) / (den * 2 ^ (last - exponent).toNat : Nat) =
      (num : ℚ) / den * 2 ^ exponent / 2 ^ last := by
    have hpow : (2 : ℚ) ^ last = 2 ^ exponent * 2 ^ (last - exponent).toNat := by
      rw [← zpow_natCast, ← zpow_add₀ (by norm_num), hshift]
      congr 1
      ring
    have hne := (two_zpow_pos exponent).ne'
    push_cast
    rw [hpow]
    field_simp
  have hden' : 0 < den * 2 ^ (last - exponent).toNat := by positivity
  rcases hlast with rfl | ⟨rfl, rfl, hne⟩
  · -- the digits are those of the float
    have hround : (extended num (den * 2 ^ (last - exponent).toNat)).roundedMantissa = m := by
      rw [roundedMantissa_extended hden']
      rw [← hfraction] at hlow hhigh htie
      exact divEven_eq_of_near hden' hlow hhigh htie
    have hsecond := shiftToTargetExponent_of_lt hc
    rw [← hround] at hsecond
    exact roundWithAccuracy_of_shifts sign hfirst hsecond ((Nat.div_one _).trans hround) hc.pos
  · -- one digit more was kept, and rounding goes up to the power of two
    have hhalf : (num : ℚ) / den * 2 ^ exponent / 2 ^ (e - 1) =
        2 * ((num : ℚ) / den * 2 ^ exponent / 2 ^ e) := by
      rw [zpow_sub_one₀ (by norm_num)]
      field_simp
    have hquarter := hedge rfl hne
    have hbelow : (num : ℚ) / den * 2 ^ exponent / 2 ^ e < 2 ^ 52 := by
      rw [div_lt_iff₀ (two_zpow_pos e)]
      rwa [show 53 + (e - 1) = 52 + e by ring, zpow_add₀ (by norm_num)] at hupper
    have hround : (extended num (den * 2 ^ (e - 1 - exponent).toNat)).roundedMantissa = 2 ^ 53 := by
      rw [roundedMantissa_extended hden']
      refine divEven_eq_of_near hden' ?_ ?_ (.inl (by decide))
      · rw [hfraction, hhalf]
        push_cast at hquarter ⊢
        linarith
      · rw [hfraction, hhalf]
        push_cast
        linarith
    have hmin := hc.least
    have hsecond := shiftToTargetExponent_carry (show -1074 ≤ e - 1 by omega)
    rw [← hround, show e - 1 + 1 = e by ring] at hsecond
    refine roundWithAccuracy_of_shifts sign hfirst hsecond ?_ hc.pos
    show (extended num _).roundedMantissa / 2 = 2 ^ 52
    rw [hround]
    norm_num

end ChartScript.Number
