import ChartScript.Proofs.Overflow

/-!
# Integers that go through a float

A float keeps 53 binary digits. An integer with more of them loses what is behind, and is rounded to the
nearest integer that a float can stand for (`ChartScript.Number.nearest`). The whole point is that this
is all that happens to it on the way through a float: made a float, multiplied by one and made an
integer again, it comes out as that integer (`ChartScript.Number.truncate?_ofNat_mul_one`), and up to
`2 ^ 53` as itself (`ChartScript.Number.nearest_eq_self`).
-/

namespace ChartScript.Number

open Float.Model Float.Model.UnpackedFloat

/-! ### The nearest integer that a float stands for -/

/-- The number of binary digits of an integer that a float has no room for. -/
def surplusDigits (n : Nat) : Nat := n.log2 - 52

/-- **The nearest integer that a float stands for**; of two that are equally near, the one with the even
mantissa. -/
def nearest (n : Nat) : Nat := divEven n (2 ^ surplusDigits n) * 2 ^ surplusDigits n

/-- A fraction may be extended before it is rounded. -/
theorem divEven_mul_mul (num den : Nat) {c : Nat} (hc : 0 < c) :
    divEven (num * c) (den * c) = divEven num den := by
  simp only [divEven, Nat.mul_div_mul_right _ _ hc, Nat.mul_mod_mul_right, ← Nat.mul_assoc,
    Nat.mul_lt_mul_right hc]

/-- **Up to the last integer with a float on either side, nothing is lost.** -/
theorem nearest_eq_self {n : Nat} (h : n ≤ 2 ^ 53) : nearest n = n := by
  rcases Nat.lt_or_eq_of_le h with hlt | rfl
  · have hlog : surplusDigits n = 0 := by
      rcases Nat.eq_zero_or_pos n with rfl | hpos
      · rfl
      · have := (Nat.log2_lt hpos.ne').2 hlt
        rw [surplusDigits]
        omega
    have hself := divEven_mul_right n Nat.one_pos
    rw [Nat.mul_one] at hself
    rw [nearest, hlog, Nat.pow_zero, hself, Nat.mul_one]
  · have hlog : surplusDigits (2 ^ 53) = 1 := by rw [surplusDigits, Nat.log2_two_pow]
    rw [nearest, hlog]
    decide +kernel

section Long

variable {n : Nat} (h : 2 ^ 53 ≤ n)

include h

theorem log2_eq_surplusDigits : n.log2 = 52 + surplusDigits n := by
  have hlog : 53 ≤ n.log2 := (Nat.le_log2 (by omega)).2 h
  rw [surplusDigits]
  omega

/-- The digits that are left are as many as a float keeps, or one more after a carry. -/
theorem divEven_surplusDigits_le : divEven n (2 ^ surplusDigits n) ≤ 2 ^ 53 := by
  have hlt : n < 2 ^ 53 * 2 ^ surplusDigits n := by
    rw [← Nat.pow_add, show 53 + surplusDigits n = n.log2 + 1 by rw [log2_eq_surplusDigits h]; ring]
    exact Nat.lt_log2_self
  have hquotient : n / 2 ^ surplusDigits n < 2 ^ 53 := Nat.div_lt_of_lt_mul (by rwa [Nat.mul_comm])
  rcases divEven_eq_or n (2 ^ surplusDigits n) with heq | heq <;> omega

theorem le_divEven_surplusDigits : 2 ^ 52 ≤ divEven n (2 ^ surplusDigits n) :=
  le_divEven_of_log2 (log2_eq_surplusDigits h)

/-- **Rounding a long integer comes to the nearest integer that a float stands for.** -/
theorem roundWithAccuracy_integer :
    ∃ m e, ∃ hpos : 0 < m, roundWithAccuracy Format.binary64 .positive (n * 2 ^ 53) (-53) .exact =
      .finite .positive m e hpos ∧ 0 ≤ e ∧ 2 ^ 52 ≤ m ∧ m < 2 ^ 53 ∧ (m : ℚ) * 2 ^ e = nearest n := by
  have hlow := le_divEven_surplusDigits h
  have hhigh := divEven_surplusDigits_le h
  obtain ⟨r, e, he, hr, hround⟩ := roundWithAccuracy_exact .positive (n * 2 ^ 53) (-53)
  -- the first rounding drops the digits in front of the point that are too many, and all behind it
  have hlog : (n * 2 ^ 53).log2 = n.log2 + 53 := by
    have hself : 2 ^ n.log2 ≤ n := Nat.log2_self_le (by omega)
    have hlt : n < 2 ^ (n.log2 + 1) := Nat.lt_log2_self
    refine (Nat.log2_eq_iff (by omega)).2 ⟨?_, ?_⟩
    · rw [Nat.pow_add]
      exact Nat.mul_le_mul_right _ hself
    · rw [Nat.add_right_comm, Nat.pow_add]
      exact Nat.mul_lt_mul_of_pos_right hlt (by positivity)
  have hdigits := log2_eq_surplusDigits h
  have hlast : lastExponent (n * 2 ^ 53) (-53) = surplusDigits n := by
    rw [lastExponent, hlog]
    omega
  rw [hlast] at he hr
  obtain rfl : e = surplusDigits n := by omega
  have hshift : ((surplusDigits n : Int) - -53).toNat = surplusDigits n + 53 := by omega
  rw [hshift, Nat.pow_add, divEven_mul_mul _ _ (by positivity)] at hr
  have hvalue : (r : ℚ) * 2 ^ (surplusDigits n : Int) = nearest n := by
    rw [nearest, ← hr, Nat.cast_mul, Nat.cast_pow, Nat.cast_ofNat, zpow_natCast]
  rw [← hr] at hlow hhigh
  -- the second one drops a zero if the first has brought a digit
  rcases Nat.lt_or_eq_of_le hhigh with hlt | rfl
  · have hagain : lastExponent r (surplusDigits n) = surplusDigits n := by
      have : r.log2 = 52 := (Nat.log2_eq_iff (by omega)).2 ⟨hlow, hlt⟩
      rw [lastExponent, this]
      omega
    rw [hagain, Int.sub_self, Int.toNat_zero, Nat.pow_zero, dif_neg (by omega), max_self] at hround
    refine ⟨_, _, _, hround, by omega, ?_, ?_, ?_⟩
    · rwa [Nat.div_one]
    · rwa [Nat.div_one]
    · rwa [Nat.div_one]
  · have hagain : lastExponent (2 ^ 53) (surplusDigits n) = surplusDigits n + 1 := by
      rw [lastExponent, Nat.log2_two_pow]
      omega
    have hone : ((surplusDigits n : Int) + 1 - surplusDigits n).toNat = 1 := by omega
    rw [hagain, hone, dif_neg (by decide), max_eq_left (by omega)] at hround
    refine ⟨_, _, _, hround, by omega, by decide, by decide, ?_⟩
    rw [← hvalue, zpow_add_one₀ (by norm_num)]
    norm_num
    ring

end Long

/-- What is left of an integer is not nothing. -/
theorem nearest_pos {n : Nat} (h : 0 < n) : 0 < nearest n := by
  rcases Nat.le_total n (2 ^ 53) with hle | hge
  · rwa [nearest_eq_self hle]
  · have := le_divEven_surplusDigits hge
    exact Nat.mul_pos (by omega) (Nat.two_pow_pos _)

/-! ### Made a float -/

/-- **The float of an integer stands for the nearest integer that a float stands for.** -/
theorem unpack_ofNat {n : Nat} (hpos : 0 < n) (hlt : n < ceiling) :
    ∃ m e, ∃ hc : Canonical m e,
      (Float.ofNat n).toModel.unpack = .finite .positive m e hc.pos ∧ (m : ℚ) * 2 ^ e = nearest n := by
  rcases Nat.lt_or_ge n (2 ^ 53) with hshort | hlong
  · obtain ⟨m, e, hc, -, hvalue⟩ := ofNat_finite hpos hshort
    have hself := roundsTo_self hc
    rw [hvalue, ← mul_one (n : ℚ), ← zpow_zero (10 : ℚ)] at hself
    rw [nearest_eq_self hshort.le]
    refine ⟨m, e, hc, ?_, hvalue⟩
    show (ofDecimal false n 0).toModel.unpack = _
    exact ofDecimal_unpack hc hself
  · obtain ⟨m, e, hm, hround, he, hlow, hhigh, hvalue⟩ := roundWithAccuracy_integer hlong
    have hpack : Float.Model.pack (.finite .positive m e hm) = (Float.ofNat n).toModel := by
      show _ = (Float.ofScientific n false 0).toModel
      rw [Float.ofScientific, dif_neg (by omega)]
      show _ = Float.Model.pack (UnpackedFloat.ofScientific Format.binary64 n 0)
      rw [ofScientific_integer (by omega), hround]
    -- below the ceiling the float is finite, so its exponent is not too large
    have hfinite : (Float.ofNat n).toModel.unpack.isFinite = true := (isFinite_ofNat_iff n).2 hlt
    rw [← hpack, isFinite_pack_iff] at hfinite
    have hc : Canonical m e := ⟨hm, hhigh, by omega, hfinite, .inl hlow⟩
    exact ⟨m, e, hc, by rw [← hpack, unpack_pack hc], hvalue⟩

section Unpacked

variable {x : Float} {m : Nat} {e : Int} (hc : Canonical m e)
  (hx : x.toModel.unpack = .finite .positive m e hc.pos)

include hx

/-- One times a float is the float. -/
theorem unpack_mul_one : (x * 1.0).toModel.unpack = .finite .positive m e hc.pos := by
  have hpos := hc.pos
  have hone : ((m * 2 ^ 52 : Nat) : ℚ) * 2 ^ (e + -52) = m * 2 ^ e := by
    rw [zpow_add₀ (by norm_num), zpow_neg]
    push_cast
    field_simp
  have hlog : 52 ≤ (m * 2 ^ 52).log2 :=
    (Nat.le_log2 (by positivity)).2 (Nat.le_mul_of_pos_left _ hpos)
  have hround := @roundWithAccuracy_eq (m * 2 ^ 52) 1 Nat.one_pos (e + -52)
    (by rw [Nat.div_one, lastExponent]; omega) m e hc
    (by rw [Nat.cast_one, div_one, hone]; exact roundsTo_self hc) .positive
  rw [Nat.div_one, Nat.mod_one] at hround
  show (Float.Model.pack (UnpackedFloat.mul Format.binary64 x.toModel.unpack
    (1.0 : Float).toModel.unpack)).unpack = _
  rw [hx, unpack_one, mul_positive]
  exact (congrArg (fun u => (Float.Model.pack u).unpack) hround).trans (unpack_pack hc _)

/-- A float that stands for an integer has it as its integer part. -/
theorem truncate?_of_unpack {n : Nat} (hvalue : (m : ℚ) * 2 ^ e = n) : truncate? x = some n := by
  have hscaled := scaled_value m e
  rw [hvalue] at hscaled
  have hpart : (scaled m e).1 / (scaled m e).2 = n := by
    have hden : 0 < (scaled m e).2 := by
      rw [scaled]
      split <;> positivity
    rw [div_eq_iff (by positivity)] at hscaled
    have hnat : (scaled m e).1 = n * (scaled m e).2 := by exact_mod_cast hscaled
    rw [hnat, Nat.mul_div_cancel _ hden]
  rw [truncate?, Exact.ofFloat, hx]
  simp only [isNegative, hpart]
  rfl

theorem zero_lt_of_unpack : x > 0.0 := by
  rw [gt_iff_lt, lt_iff_compare, unpack_zero, hx]
  rfl

end Unpacked

/-- **An integer on its way through a float and back**, by way of a product with one. -/
theorem truncate?_ofNat_mul_one {n : Nat} (hpos : 0 < n) (hlt : n < ceiling) :
    Float.ofNat n > 0.0 ∧ truncate? (Float.ofNat n * 1.0) = some (nearest n) := by
  obtain ⟨m, e, hc, hx, hvalue⟩ := unpack_ofNat hpos hlt
  exact ⟨zero_lt_of_unpack hc hx, truncate?_of_unpack hc (unpack_mul_one hc hx) hvalue⟩

/-- The first integer that a float does not stand for. -/
example : nearest (2 ^ 53 + 1) = 2 ^ 53 := by decide +kernel

end ChartScript.Number
