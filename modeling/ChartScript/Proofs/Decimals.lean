import ChartScript.Proofs.Packing

/-!
# Decimal numbers that round to a float

A decimal number is made a float in two ways. Small ones go by one product or quotient of two floats
that are exact, and the others by a product or quotient of long mantissas. Both are rounded once, so
both give the float that the decimal number rounds to (`ChartScript.Number.ofDecimal_unpack`). In
particular a decimal number that rounds to a float is read as the float
(`ChartScript.Number.ofDecimal_eq`).
-/

namespace ChartScript.Number

open Float.Model Float.Model.UnpackedFloat

/-! ### Products and quotients -/

/-- A float rounds to itself. -/
theorem roundsTo_self {m : Nat} {e : Int} (hc : Canonical m e) :
    RoundsTo ((m : ℚ) * 2 ^ e) m e := by
  have hquarter : (m : ℚ) * 2 ^ e = (4 * m : Nat) * 2 ^ (e - 2) := by
    rw [zpow_sub₀ (by norm_num)]
    push_cast
    ring
  have hunit := two_zpow_pos (e - 2)
  have hbounds : (quarterBounds .double m e).1 < 4 * m ∧ 4 * m < (quarterBounds .double m e).2 := by
    have hpos := hc.pos
    rw [quarterBounds]
    split <;> constructor <;> simp only [] <;> omega
  have hlow : ((quarterBounds .double m e).1 : ℚ) < (4 * m : Nat) := by exact_mod_cast hbounds.1
  have hhigh : ((4 * m : Nat) : ℚ) < (quarterBounds .double m e).2 := by exact_mod_cast hbounds.2
  rw [hquarter]
  have hlow' := mul_lt_mul_of_pos_right hlow hunit
  have hhigh' := mul_lt_mul_of_pos_right hhigh hunit
  exact ⟨hlow'.le, hhigh'.le, .inr ⟨hlow', hhigh'⟩⟩

section Operations

variable {m₁ m₂ m : Nat} {e₁ e₂ e : Int} (h₁ : 0 < m₁) (h₂ : 0 < m₂) (hc : Canonical m e)

/-- **A product is the float that it rounds to**, if the mantissas together have enough digits. -/
theorem mul_finite (hlong : 2 ^ 52 ≤ m₁ * m₂)
    (h : RoundsTo ((m₁ : ℚ) * 2 ^ e₁ * (m₂ * 2 ^ e₂)) m e) (s₁ s₂ : Sign) :
    UnpackedFloat.mul Format.binary64 (.finite s₁ m₁ e₁ h₁) (.finite s₂ m₂ e₂ h₂) =
      .finite (s₁ * s₂) m e hc.pos := by
  have hlog : 52 ≤ (m₁ * m₂).log2 := (Nat.le_log2 (by positivity)).2 hlong
  have hle : e₁ + e₂ ≤ lastExponent (m₁ * m₂ / 1) (e₁ + e₂) := by
    rw [lastExponent, Nat.div_one]
    omega
  have hvalue : ((m₁ * m₂ : Nat) : ℚ) / (1 : Nat) * 2 ^ (e₁ + e₂) =
      (m₁ : ℚ) * 2 ^ e₁ * (m₂ * 2 ^ e₂) := by
    rw [zpow_add₀ (by norm_num)]
    push_cast
    ring
  have hround := roundWithAccuracy_eq Nat.one_pos hle hc (by rwa [hvalue]) (s₁ * s₂)
  rw [Nat.div_one, Nat.mod_one] at hround
  exact hround

include h₁ h₂ in
variable (e₁ e₂) in
/-- **The quotient that is rounded has enough digits.** -/
theorem divCore_eq : ∃ shift : Nat,
    UnpackedFloat.divCore Format.binary64 m₁ e₁ m₂ e₂ =
        (m₁ * 2 ^ shift / m₂, e₁ - e₂ - shift, accuracyOfFraction (m₁ * 2 ^ shift % m₂) m₂) ∧
      e₁ - e₂ - shift ≤ lastExponent (m₁ * 2 ^ shift / m₂) (e₁ - e₂ - shift) := by
  have htarget : Format.binary64.targetExponent (totalExponent m₁ e₁ - totalExponent m₂ e₂) =
      max ((m₁.log2 : Int) + e₁ - (m₂.log2 + e₂) - 53) (-1074) := by
    simp only [Format.targetExponent, totalExponent, Format.mantissaBits, Format.minExponent]
    norm_num
    omega
  let last := min (e₁ - e₂) (max ((m₁.log2 : Int) + e₁ - (m₂.log2 + e₂) - 53) (-1074))
  have hshift : ((e₁ - e₂ - last).toNat : Int) = e₁ - e₂ - last := Int.toNat_of_nonneg (by omega)
  refine ⟨(e₁ - e₂ - last).toNat, ?_, ?_⟩
  · rw [UnpackedFloat.divCore, htarget]
    simp only [Nat.shiftLeft_eq]
    rw [hshift, sub_sub_cancel]
  · rw [hshift, sub_sub_cancel, lastExponent]
    -- unless the exponent is the least one, the quotient has a digit more than is kept
    rcases le_or_gt last (-1074) with hleast | hmore
    · exact hleast.trans (le_max_right _ _)
    · have hdigits : m₂.log2 + 53 ≤ m₁.log2 + (e₁ - e₂ - last).toNat := by omega
      have hlow : 2 ^ m₁.log2 ≤ m₁ := Nat.log2_self_le h₁.ne'
      have hhigh : m₂ < 2 ^ (m₂.log2 + 1) := Nat.lt_log2_self
      have hquotient : 2 ^ 52 ≤ m₁ * 2 ^ (e₁ - e₂ - last).toNat / m₂ := by
        rw [Nat.le_div_iff_mul_le h₂]
        calc 2 ^ 52 * m₂ ≤ 2 ^ 52 * 2 ^ (m₂.log2 + 1) := Nat.mul_le_mul_left _ hhigh.le
          _ = 2 ^ (m₂.log2 + 53) := by rw [← Nat.pow_add]; congr 1; omega
          _ ≤ 2 ^ (m₁.log2 + (e₁ - e₂ - last).toNat) := Nat.pow_le_pow_right (by decide) hdigits
          _ = 2 ^ m₁.log2 * 2 ^ (e₁ - e₂ - last).toNat := Nat.pow_add _ _ _
          _ ≤ m₁ * 2 ^ (e₁ - e₂ - last).toNat := Nat.mul_le_mul_right _ hlow
      have hlog := (Nat.le_log2 (by omega)).2 hquotient
      omega

/-- **A quotient is the float that it rounds to.** -/
theorem div_finite (h : RoundsTo ((m₁ : ℚ) * 2 ^ e₁ / (m₂ * 2 ^ e₂)) m e) (s₁ s₂ : Sign) :
    UnpackedFloat.div Format.binary64 (.finite s₁ m₁ e₁ h₁) (.finite s₂ m₂ e₂ h₂) =
      .finite (s₁ / s₂) m e hc.pos := by
  obtain ⟨shift, hcore, hle⟩ := divCore_eq e₁ e₂ h₁ h₂
  have hvalue : ((m₁ * 2 ^ shift : Nat) : ℚ) / m₂ * 2 ^ (e₁ - e₂ - shift) =
      (m₁ : ℚ) * 2 ^ e₁ / (m₂ * 2 ^ e₂) := by
    have hne : (m₂ : ℚ) ≠ 0 := by exact_mod_cast h₂.ne'
    rw [zpow_sub₀ (by norm_num), zpow_sub₀ (by norm_num), zpow_natCast]
    push_cast
    field_simp
  rw [UnpackedFloat.div, hcore]
  exact roundWithAccuracy_eq h₂ hle hc (by rwa [hvalue]) (s₁ / s₂)

end Operations

/-! ### Decimal numbers -/

/-- What a decimal number stands for. -/
def Decimal.value (d : Decimal) : ℚ := d.digits * 10 ^ d.exponent

theorem ten_zpow_pos (e : Int) : (0 : ℚ) < 10 ^ e := zpow_pos (by norm_num) e

/-- Negative powers of ten are below those of two. -/
theorem ten_zpow_le {e : Int} (he : e ≤ 0) : (10 : ℚ) ^ e ≤ 2 ^ e := by
  obtain ⟨k, hk⟩ := Int.eq_ofNat_of_zero_le (show 0 ≤ -e by omega)
  obtain rfl : e = -(k : Int) := by omega
  rw [zpow_neg, zpow_neg, zpow_natCast, zpow_natCast]
  exact inv_anti₀ (by positivity) (pow_le_pow_left₀ (by norm_num) (by norm_num) k)

/-- A number that rounds to a float is not so large. -/
theorem RoundsTo.lt_large {v : ℚ} {m : Nat} {e : Int} (hc : Canonical m e) (h : RoundsTo v m e) :
    v < 2 ^ (1024 : Int) :=
  (h.lt hc).trans_le (two_zpow_le (by have := hc.most; omega))

/-- And not so small. -/
theorem RoundsTo.gt_small {v : ℚ} {m : Nat} {e : Int} (hc : Canonical m e) (h : RoundsTo v m e) :
    2 ^ (-1075 : Int) ≤ v := by
  obtain ⟨hlow, -⟩ := h.near hc
  have hunit := two_zpow_pos e
  rw [le_div_iff₀ hunit] at hlow
  have hm : (1 : ℚ) ≤ m := by exact_mod_cast hc.pos
  have hhalf : (2 : ℚ) ^ (-1075 : Int) ≤ 1 / 2 * 2 ^ e := by
    have heq : (1 : ℚ) / 2 * 2 ^ e = 2 ^ (e - 1) := by
      rw [zpow_sub_one₀ (by norm_num)]
      ring
    rw [heq]
    exact two_zpow_le (by have := hc.least; omega)
  refine hhalf.trans (le_trans ?_ hlow)
  exact mul_le_mul_of_nonneg_right (by linarith) hunit.le

/-- Something rounds to a positive float only if it has digits. -/
theorem RoundsTo.digits_pos {digits : Nat} {exponent : Int} {m : Nat} {e : Int} (hc : Canonical m e)
    (h : RoundsTo ((digits : ℚ) * 10 ^ exponent) m e) : 0 < digits := by
  rcases Nat.eq_zero_or_pos digits with rfl | hpos
  · have := h.pos hc
    simp at this
  · exact hpos

section Range

variable {digits : Nat} {exponent : Int} {m : Nat} {e : Int} (hc : Canonical m e)
  (h : RoundsTo ((digits : ℚ) * 10 ^ exponent) m e)

include hc h

/-- Where something rounds to a float, the exponent is not past the range of floats. -/
theorem RoundsTo.exponent_le : exponent ≤ 2 ^ 11 := by
  by_contra! hlarge
  have hone : (1 : ℚ) ≤ digits := by exact_mod_cast h.digits_pos hc
  have hsmaller : (2 : ℚ) ^ (1024 : Int) < 2 ^ (1024 : Int) := by
    calc (2 : ℚ) ^ (1024 : Int) ≤ 2 ^ (2048 : Int) := two_zpow_le (by norm_num)
      _ ≤ 10 ^ (2048 : Int) := zpow_le_zpow_left₀ (by norm_num) (by norm_num) (by norm_num)
      _ ≤ 10 ^ exponent := zpow_le_zpow_right₀ (by norm_num) (by omega)
      _ ≤ digits * 10 ^ exponent := le_mul_of_one_le_left (ten_zpow_pos exponent).le hone
      _ < 2 ^ (1024 : Int) := h.lt_large hc
  exact lt_irrefl _ hsmaller

/-- And it is not so far below the range that the digits cannot make up for it. -/
theorem RoundsTo.le_exponent : -((2 ^ 11 : Int) + digits.log2) ≤ exponent := by
  by_contra! hsmall
  have hdigits : (digits : ℚ) < 2 ^ ((digits.log2 : Int) + 1) := by
    have : digits < 2 ^ (digits.log2 + 1) := Nat.lt_log2_self
    exact_mod_cast this
  have hten : (10 : ℚ) ^ exponent ≤ 2 ^ exponent := ten_zpow_le (by omega)
  have hsmaller : (2 : ℚ) ^ (-1075 : Int) < 2 ^ (-1075 : Int) := by
    calc (2 : ℚ) ^ (-1075 : Int) ≤ digits * 10 ^ exponent := h.gt_small hc
      _ ≤ digits * 2 ^ exponent := mul_le_mul_of_nonneg_left hten (by positivity)
      _ < 2 ^ ((digits.log2 : Int) + 1) * 2 ^ exponent :=
        mul_lt_mul_of_pos_right hdigits (two_zpow_pos exponent)
      _ = 2 ^ ((digits.log2 : Int) + 1 + exponent) := (zpow_add₀ (by norm_num) _ _).symm
      _ ≤ 2 ^ (-1075 : Int) := two_zpow_le (by omega)
  exact lt_irrefl _ hsmaller

end Range

/-- **Rounding a decimal number.** -/
theorem ofScientific_finite {digits : Nat} {exponent : Int} {m : Nat} {e : Int}
    (hc : Canonical m e) (h : RoundsTo ((digits : ℚ) * 10 ^ exponent) m e) :
    UnpackedFloat.ofScientific Format.binary64 digits exponent = .finite .positive m e hc.pos := by
  have hpos := h.digits_pos hc
  -- the number is in the range where it is rounded
  have hnotlarge : ¬ exponent > 2 ^ Format.binary64.exponentBits := (h.exponent_le hc).not_gt
  have hnotsmall : ¬ exponent < -((2 ^ Format.binary64.exponentBits : Int) + digits.log2) :=
    (h.le_exponent hc).not_gt
  rw [UnpackedFloat.ofScientific, dif_neg hpos.ne', if_neg hnotlarge, if_neg hnotsmall]
  split
  · rename_i hnonneg
    have hpow : ((10 : Nat) ^ exponent.toNat : Nat) = ((10 : ℚ) ^ exponent) := by
      rw [Nat.cast_pow, Nat.cast_ofNat, ← zpow_natCast, Int.toNat_of_nonneg hnonneg]
    have hlong : 2 ^ 52 ≤ digits <<< Format.binary64.mantissaBits * 10 ^ exponent.toNat := by
      rw [Nat.shiftLeft_eq]
      show 2 ^ 52 ≤ digits * 2 ^ 53 * 10 ^ exponent.toNat
      have hone' : 0 < 10 ^ exponent.toNat := by positivity
      nlinarith
    refine mul_finite _ _ hc hlong ?_ _ _
    have hvalue : ((digits <<< Format.binary64.mantissaBits : Nat) : ℚ) *
        2 ^ (-(Format.binary64.mantissaBits : Int)) *
          (((10 : Nat) ^ exponent.toNat : Nat) * 2 ^ (0 : Int)) = digits * 10 ^ exponent := by
      rw [hpow, Nat.shiftLeft_eq, zpow_neg, zpow_natCast]
      push_cast
      field_simp
    rw [hvalue]
    exact h
  · rename_i hneg
    have hpow : ((10 : Nat) ^ (-exponent).toNat : Nat) = ((10 : ℚ) ^ exponent)⁻¹ := by
      rw [Nat.cast_pow, Nat.cast_ofNat, ← zpow_natCast, Int.toNat_of_nonneg (by omega), zpow_neg]
    refine div_finite _ _ hc ?_ _ _
    have hvalue : (digits : ℚ) * 2 ^ (0 : Int) /
        (((10 : Nat) ^ (-exponent).toNat : Nat) * 2 ^ (0 : Int)) = digits * 10 ^ exponent := by
      rw [hpow]
      simp
    rw [hvalue]
    exact h

/-! ### Numbers that are floats -/

/-- A positive number that is a float. -/
def IsExact (x : Float) (v : ℚ) : Prop :=
  ∃ m e, ∃ hc : Canonical m e, x.toModel.unpack = .finite .positive m e hc.pos ∧ (m : ℚ) * 2 ^ e = v

/-- **A natural number that is not too large is a float.** -/
theorem ofNat_finite {n : Nat} (hpos : 0 < n) (hlt : n < 2 ^ 53) :
    ∃ m e, ∃ hc : Canonical m e,
      UnpackedFloat.ofNat Format.binary64 n = .finite .positive m e hc.pos ∧ (m : ℚ) * 2 ^ e = n := by
  have hlog : n.log2 < 53 := (Nat.log2_lt hpos.ne').2 hlt
  have hlow : 2 ^ n.log2 ≤ n := Nat.log2_self_le hpos.ne'
  have hhigh : n < 2 ^ (n.log2 + 1) := Nat.lt_log2_self
  have hpow : 2 ^ n.log2 * 2 ^ (52 - n.log2) = 2 ^ 52 := by
    rw [← Nat.pow_add]
    congr 1
    omega
  have hc : Canonical (n * 2 ^ (52 - n.log2)) (-(52 - n.log2 : Nat) : Int) := by
    have hunit : 0 < 2 ^ (52 - n.log2) := by positivity
    have hfull : 2 ^ 52 ≤ n * 2 ^ (52 - n.log2) := by
      rw [← hpow]
      exact Nat.mul_le_mul_right _ hlow
    have hshort : n * 2 ^ (52 - n.log2) < 2 ^ 53 := by
      calc n * 2 ^ (52 - n.log2) < 2 ^ (n.log2 + 1) * 2 ^ (52 - n.log2) :=
            Nat.mul_lt_mul_of_pos_right hhigh hunit
        _ = 2 * (2 ^ n.log2 * 2 ^ (52 - n.log2)) := by ring
        _ = 2 ^ 53 := by rw [hpow]; norm_num
    exact ⟨by positivity, hshort, by omega, by omega, .inl hfull⟩
  have hvalue : ((n * 2 ^ (52 - n.log2) : Nat) : ℚ) * 2 ^ (-(52 - n.log2 : Nat) : Int) = n := by
    rw [zpow_neg, zpow_natCast]
    push_cast
    field_simp
  refine ⟨_, _, hc, ?_, hvalue⟩
  have htarget : Format.binary64.targetExponent (totalExponent n 0) = -(52 - n.log2 : Nat) := by
    rw [targetExponent_eq, lastExponent]
    omega
  have hcompare : compare (n : Int) 0 = .gt := Int.compare_eq_gt.2 (by exact_mod_cast hpos)
  have hround : UnpackedFloat.ofNat Format.binary64 n =
      roundWithAccuracy Format.binary64 .positive (n * 2 ^ (52 - n.log2))
        (-(52 - n.log2 : Nat) : Int) .exact := by
    simp only [UnpackedFloat.ofNat, UnpackedFloat.ofInt, UnpackedFloat.normalize, hcompare]
    rw [UnpackedFloat.round, Int.toNat_natCast, htarget]
    simp only [UnpackedFloat.decreaseExponent, Nat.shiftLeft_eq]
    simp
  have hself := roundsTo_self hc
  have hle : (-(52 - n.log2 : Nat) : Int) ≤
      lastExponent (n * 2 ^ (52 - n.log2) / 1) (-(52 - n.log2 : Nat) : Int) := by
    have := (Nat.le_log2 hc.pos.ne').2 (hc.full.resolve_right (by omega))
    rw [lastExponent, Nat.div_one]
    omega
  have h := roundWithAccuracy_eq Nat.one_pos hle hc (by rwa [Nat.cast_one, div_one]) .positive
  rw [Nat.div_one, Nat.mod_one] at h
  rw [hround]
  exact h

/-- Such a number, as the float that small literals are made from. -/
theorem isExact_toFloat {n : Nat} (hpos : 0 < n) (hlt : n < 2 ^ 53) :
    IsExact n.toUInt64.toFloat n := by
  obtain ⟨m, e, hc, hn, hvalue⟩ := ofNat_finite hpos hlt
  have hnat : n.toUInt64.toNat = n := by
    show n % 2 ^ 64 = n
    omega
  refine ⟨m, e, hc, ?_, hvalue⟩
  show (Float.Model.pack (UnpackedFloat.ofNat Format.binary64 n.toUInt64.toNat)).unpack = _
  rw [hnat, hn]
  exact unpack_pack hc .positive

/-- A float given by its bits. -/
theorem isExact_ofBits {bits : UInt64} {m : Nat} {e : Int} {hpos : 0 < m} {v : ℚ}
    (h : UnpackedFloat.unpack Format.binary64 bits.toBitVec = .finite .positive m e hpos)
    (hv : (m : ℚ) * 2 ^ e = v) : IsExact (Float.ofBits bits) v := by
  have hc := canonical_of_unpackBits h
  refine ⟨m, e, hc, ?_, hv⟩
  show (Float.Model.pack (UnpackedFloat.unpack Format.binary64 bits.toBitVec)).unpack = _
  rw [h]
  exact unpack_pack hc .positive

/-- Whether a float given by its bits is a power of ten. -/
def isPowerOfTen (bits : UInt64) (place : Nat) : Bool :=
  match UnpackedFloat.unpack Format.binary64 bits.toBitVec with
  | .finite .positive m e _ => m * 2 ^ e.toNat == 10 ^ place * 2 ^ (-e).toNat
  | _ => false

theorem isExact_of_isPowerOfTen {bits : UInt64} {place : Nat} (h : isPowerOfTen bits place) :
    IsExact (Float.ofBits bits) (10 ^ place) := by
  rw [isPowerOfTen] at h
  split at h
  · rename_i m e hpos hunpack
    refine isExact_ofBits hunpack ?_
    rw [beq_iff_eq] at h
    have hcast : (m : ℚ) * 2 ^ (e.toNat : Int) = 10 ^ place * 2 ^ ((-e).toNat : Int) := by
      rw [zpow_natCast, zpow_natCast]
      exact_mod_cast h
    have hsplit : e = (e.toNat : Int) - ((-e).toNat : Int) := by omega
    rw [hsplit, zpow_sub₀ (by norm_num), ← mul_div_assoc, hcast]
    exact mul_div_cancel_right₀ _ (two_zpow_pos _).ne'
  · cases h

/-- **The powers of ten in the table are exact.** -/
theorem isExact_powersOfTen {e : Nat} (he : e < Float.exactlyRepresentablePowersOfTen.size) :
    IsExact Float.exactlyRepresentablePowersOfTen[e] (10 ^ e) := by
  have hsize : Float.exactlyRepresentablePowersOfTen.size = 23 := rfl
  rw [hsize] at he
  interval_cases e
  all_goals exact isExact_of_isPowerOfTen (by decide)

section Exact

variable {x y : Float} {v w : ℚ} (hx : IsExact x v) (hy : IsExact y w) {m : Nat} {e : Int}
  (hc : Canonical m e)

include hx hy

/-- **The product of two floats** is the float that the product of the numbers rounds to. -/
theorem IsExact.mul (hv : 1 ≤ v) (h : RoundsTo (v * w) m e) :
    (x * y).toModel.unpack = .finite .positive m e hc.pos := by
  obtain ⟨m₁, e₁, hc₁, hx, rfl⟩ := hx
  obtain ⟨m₂, e₂, hc₂, hy, rfl⟩ := hy
  -- a float that is not below one has all its digits
  have hfull : 2 ^ 52 ≤ m₁ := by
    refine hc₁.full.resolve_right ?_
    rintro rfl
    have hlt : (m₁ : ℚ) < 2 ^ (53 : Int) := by exact_mod_cast hc₁.lt
    have hless : (m₁ : ℚ) * 2 ^ (-1074 : Int) < 2 ^ (0 : Int) := by
      calc (m₁ : ℚ) * 2 ^ (-1074 : Int) < 2 ^ (53 : Int) * 2 ^ (-1074 : Int) :=
            mul_lt_mul_of_pos_right hlt (two_zpow_pos _)
        _ = 2 ^ (53 + -1074 : Int) := (zpow_add₀ (by norm_num) _ _).symm
        _ ≤ 2 ^ (0 : Int) := two_zpow_le (by norm_num)
    rw [zpow_zero] at hless
    exact absurd hv (not_le.2 hless)
  have hlong : 2 ^ 52 ≤ m₁ * m₂ := hfull.trans (Nat.le_mul_of_pos_right _ hc₂.pos)
  show (Float.Model.pack (UnpackedFloat.mul Format.binary64 x.toModel.unpack
    y.toModel.unpack)).unpack = _
  rw [hx, hy, mul_finite hc₁.pos hc₂.pos hc hlong h]
  exact unpack_pack hc .positive

/-- **The quotient of two floats** is the float that the quotient of the numbers rounds to. -/
theorem IsExact.div (h : RoundsTo (v / w) m e) :
    (x / y).toModel.unpack = .finite .positive m e hc.pos := by
  obtain ⟨m₁, e₁, hc₁, hx, rfl⟩ := hx
  obtain ⟨m₂, e₂, hc₂, hy, rfl⟩ := hy
  show (Float.Model.pack (UnpackedFloat.div Format.binary64 x.toModel.unpack
    y.toModel.unpack)).unpack = _
  rw [hx, hy, div_finite hc₁.pos hc₂.pos hc h]
  exact unpack_pack hc .positive

end Exact

/-- **A literal is the float that its decimal number rounds to.** Small numbers go by one operation on
two floats, the others are rounded once. -/
theorem ofDecimal_unpack {digits : Nat} {exponent : Int} {m : Nat} {e : Int} (hc : Canonical m e)
    (h : RoundsTo ((digits : ℚ) * 10 ^ exponent) m e) :
    (ofDecimal false digits exponent).toModel.unpack = .finite .positive m e hc.pos := by
  have hpos := h.digits_pos hc
  have hone : (1 : ℚ) ≤ digits := by exact_mod_cast hpos
  have key : ∀ (negative : Bool) (places : Nat),
      exponent = (if negative then Int.negOfNat places else Int.ofNat places) →
      (Float.ofScientific digits negative places).toModel.unpack = .finite .positive m e hc.pos := by
    intro negative places hplaces
    rw [Float.ofScientific]
    split
    · rename_i hsmall
      have hlen : places < Float.exactlyRepresentablePowersOfTen.size :=
        Nat.lt_of_le_of_lt hsmall.2 (by decide)
      have hdigits := isExact_toFloat hpos hsmall.1
      have hten := isExact_powersOfTen hlen
      cases negative with
      | true =>
        have hvalue : (digits : ℚ) * 10 ^ exponent = digits / 10 ^ places := by
          rw [hplaces, if_pos rfl, Int.negOfNat_eq, zpow_neg, Int.ofNat_eq_natCast, zpow_natCast,
            div_eq_mul_inv]
        exact hdigits.div hten hc (by rwa [← hvalue])
      | false =>
        have hvalue : (digits : ℚ) * 10 ^ exponent = digits * 10 ^ places := by
          rw [hplaces, if_neg (by simp), Int.ofNat_eq_natCast, zpow_natCast]
        exact hdigits.mul hten hc hone (by rwa [← hvalue])
    · show (Float.Model.pack (UnpackedFloat.ofScientific Format.binary64 digits _)).unpack = _
      rw [← hplaces, ofScientific_finite hc h]
      exact unpack_pack hc .positive
  rw [ofDecimal]
  simp only [Bool.false_eq_true, if_false]
  split
  · rename_i hnonneg
    exact key false exponent.toNat (by simp [hnonneg])
  · rename_i hneg
    refine key true (-exponent).toNat ?_
    rw [if_pos rfl, Int.negOfNat_eq, Int.ofNat_eq_natCast]
    omega

/-- **A decimal number that rounds to a float is read as the float.** -/
theorem ofDecimal_eq {x : Float} {m : Nat} {e : Int} {hpos : 0 < m}
    (hx : x.toModel.unpack = .finite .positive m e hpos) {digits : Nat} {exponent : Int}
    (h : RoundsTo ((digits : ℚ) * 10 ^ exponent) m e) : ofDecimal false digits exponent = x :=
  eq_of_unpack_eq ((ofDecimal_unpack (canonical_of_unpack hx) h).trans hx.symm)

end ChartScript.Number
