import ChartScript.Proofs.Decimals

/-!
# The shortest decimal number reads back

A float is written with the first decimal number that reads back, of the one with one digit, the
one with two digits and so on. The whole point is that a number is found: with eighteen digits the
nearest decimal number is so near to a float of double precision that it lies inside the interval
of the numbers that round to the float (`significant_roundsTo`). For that the number of digits
before the point must not be told too large, which is a comparison of the powers of ten and two
(`order_le`).
-/

namespace ChartScript.Number

/-! ### Fractions -/

theorem scaled_den_pos (n : Nat) (e : Int) : 0 < (scaled n e).2 := by
  rw [scaled]
  split
  · exact Nat.one_pos
  · exact Nat.two_pow_pos _

/-- The fraction that is a number times a power of two. -/
theorem scaled_value (n : Nat) (e : Int) : ((scaled n e).1 : ℚ) / (scaled n e).2 = n * 2 ^ e := by
  rw [scaled]
  split
  · rename_i h
    obtain ⟨k, rfl⟩ := Int.eq_ofNat_of_zero_le h
    simp
  · rename_i h
    obtain ⟨k, hk⟩ := Int.eq_ofNat_of_zero_le (show 0 ≤ -e by omega)
    obtain rfl : e = -(k : Int) := by omega
    simp [zpow_neg, div_eq_mul_inv]

section Downscaled

variable {num den : Nat} (hden : 0 < den) (place : Int)

include hden

theorem downscaled_den_pos : 0 < (downscaled num den place).2 := by
  rw [downscaled]
  split
  · exact Nat.mul_pos hden (Nat.pow_pos (by decide))
  · exact hden

/-- The fraction that is a fraction over a power of ten. -/
theorem downscaled_value : ((downscaled num den place).1 : ℚ) / (downscaled num den place).2 =
    num / den / 10 ^ place := by
  have hne : (den : ℚ) ≠ 0 := by exact_mod_cast hden.ne'
  rw [downscaled]
  split
  · rename_i h
    obtain ⟨k, rfl⟩ := Int.eq_ofNat_of_zero_le h
    simp [div_div]
  · rename_i h
    obtain ⟨k, hk⟩ := Int.eq_ofNat_of_zero_le (show 0 ≤ -place by omega)
    obtain rfl : place = -(k : Int) := by omega
    simp only [neg_neg, Int.toNat_natCast, zpow_neg, zpow_natCast]
    push_cast
    field_simp

theorem belowPower_iff : belowPower num den place = true ↔ (num : ℚ) / den < 10 ^ place := by
  have hpos : (0 : ℚ) < (downscaled num den place).2 := by exact_mod_cast downscaled_den_pos hden place
  have hvalue := @downscaled_value num den hden place
  show decide ((downscaled num den place).1 < (downscaled num den place).2) = true ↔ _
  rw [decide_eq_true_iff, ← Nat.cast_lt (α := ℚ), ← div_lt_one₀ hpos, hvalue,
    div_lt_one₀ (ten_zpow_pos place)]

end Downscaled

/-! ### The number of digits before the point -/

/-- Powers of ten and of two, by an approximation of the logarithm from below or from above. -/
theorem ten_zpow_le_two_zpow {k n : Int} (hpos : 0 ≤ n → 196 * k ≤ 59 * n)
    (hneg : n < 0 → 93 * k ≤ 28 * n) : (10 : ℚ) ^ k ≤ 2 ^ n := by
  rcases Int.lt_or_le n 0 with hn | hn
  · obtain ⟨j, hj⟩ := Int.eq_ofNat_of_zero_le (show 0 ≤ -n by omega)
    have hpow : ((10 : ℚ) ^ k) ^ 93 ≤ (2 ^ n) ^ 93 := by
      calc ((10 : ℚ) ^ k) ^ 93 = 10 ^ (93 * k) := by rw [← zpow_natCast, ← zpow_mul, mul_comm]; rfl
        _ ≤ 10 ^ (28 * n) := zpow_le_zpow_right₀ (by norm_num) (hneg hn)
        _ = ((10 ^ 28) ^ j)⁻¹ := by
            rw [show 28 * n = -((28 * j : Nat) : Int) by push_cast; omega, zpow_neg, zpow_natCast,
              pow_mul]
        _ ≤ ((2 ^ 93) ^ j)⁻¹ :=
            inv_anti₀ (by positivity) (pow_le_pow_left₀ (by norm_num) (by norm_num) j)
        _ = (2 ^ n) ^ 93 := by
            rw [← zpow_natCast (2 ^ n), ← zpow_mul, show n * ((93 : Nat) : Int) =
              -((93 * j : Nat) : Int) by push_cast; omega, zpow_neg, zpow_natCast, pow_mul]
    exact le_of_pow_le_pow_left₀ (by norm_num) (two_zpow_pos n).le hpow
  · obtain ⟨j, rfl⟩ := Int.eq_ofNat_of_zero_le hn
    have hpow : ((10 : ℚ) ^ k) ^ 196 ≤ (2 ^ (j : Int)) ^ 196 := by
      calc ((10 : ℚ) ^ k) ^ 196 = 10 ^ (196 * k) := by
            rw [← zpow_natCast, ← zpow_mul, mul_comm]; rfl
        _ ≤ 10 ^ ((59 * j : Nat) : Int) :=
            zpow_le_zpow_right₀ (by norm_num) (by push_cast; exact hpos hn)
        _ = (10 ^ 59) ^ j := by rw [zpow_natCast, pow_mul]
        _ ≤ (2 ^ 196) ^ j := pow_le_pow_left₀ (by norm_num) (by norm_num) j
        _ = (2 ^ (j : Int)) ^ 196 := by rw [zpow_natCast, ← pow_mul, ← pow_mul, mul_comm]
    exact le_of_pow_le_pow_left₀ (by norm_num) (two_zpow_pos _).le hpow

/-- A fraction lies above the power of two that the lengths of its parts tell. -/
theorem two_zpow_le_div {num den : Nat} (hnum : 0 < num) (hden : 0 < den) :
    (2 : ℚ) ^ ((num.log2 : Int) - den.log2 - 1) ≤ num / den := by
  have hden' : (0 : ℚ) < den := by exact_mod_cast hden
  have hlow : (2 : ℚ) ^ num.log2 ≤ num := by exact_mod_cast Nat.log2_self_le hnum.ne'
  have hhigh : (den : ℚ) ≤ 2 ^ (den.log2 + 1) := by exact_mod_cast Nat.lt_log2_self.le
  rw [le_div_iff₀ hden']
  calc (2 : ℚ) ^ ((num.log2 : Int) - den.log2 - 1) * den
      ≤ 2 ^ ((num.log2 : Int) - den.log2 - 1) * 2 ^ (den.log2 + 1) :=
        mul_le_mul_of_nonneg_left hhigh (two_zpow_pos _).le
    _ = 2 ^ num.log2 := by
        rw [← zpow_natCast, ← zpow_natCast, ← zpow_add₀ (by norm_num)]
        congr 1
        push_cast
        ring
    _ ≤ num := hlow

/-- **The number of digits before the point is not told too large.** -/
theorem order_le {num den : Nat} (hnum : 0 < num) (hden : 0 < den) (hshort : num.log2 ≤ 2000)
    (hshort' : den.log2 ≤ 2000) : (10 : ℚ) ^ (order num den - 1) ≤ num / den := by
  have hnot : ∀ {p : Int}, ¬ belowPower num den p = true → (10 : ℚ) ^ p ≤ num / den := by
    intro p h
    rw [belowPower_iff hden] at h
    exact not_lt.1 h
  rw [order]
  generalize hguess : (((num.log2 : Int) - den.log2 - 1) * 30103).fdiv 100000 = guess
  have hdiv : 100000 * guess ≤ ((num.log2 : Int) - den.log2 - 1) * 30103 := by
    rw [← hguess, Int.fdiv_eq_ediv_of_nonneg _ (by norm_num)]
    exact Int.mul_ediv_self_le (by norm_num)
  split
  · refine le_trans (ten_zpow_le_two_zpow ?_ ?_) (two_zpow_le_div hnum hden)
    · intro hn
      omega
    · intro hn
      omega
  · rename_i hbelow
    split
    · rw [Int.add_sub_cancel]
      exact hnot hbelow
    · rename_i hbelow'
      split
      · rw [show guess + 2 - 1 = guess + 1 by omega]
        exact hnot hbelow'
      · rename_i hbelow''
        rw [show guess + 3 - 1 = guess + 2 by omega]
        exact hnot hbelow''

/-! ### Decimal numbers that read back -/

/-- Rounding a quotient takes one of the integers at its sides. -/
theorem divEven_eq_or (num den : Nat) :
    divEven num den = num / den ∨ divEven num den = num / den + 1 := by
  rw [divEven]
  split
  · exact .inl rfl
  · split
    · exact .inr rfl
    · omega

/-- Rounding a quotient moves it by a half at most. -/
theorem divEven_near (num : Nat) {den : Nat} (hden : 0 < den) :
    (num : ℚ) / den - 1 / 2 ≤ divEven num den ∧ (divEven num den : ℚ) ≤ num / den + 1 / 2 := by
  have hden' : (0 : ℚ) < den := by exact_mod_cast hden
  have hmod := Nat.mod_lt num hden
  have hdiv := Nat.div_add_mod num den
  have key : 2 * num ≤ 2 * (divEven num den * den) + den ∧
      2 * (divEven num den * den) ≤ 2 * num + den := by
    rw [divEven]
    rw [Nat.mul_comm] at hdiv
    split
    · omega
    · have hstep : (num / den + 1) * den = num / den * den + den := Nat.succ_mul _ _
      split
      · omega
      · rcases Nat.mod_two_eq_zero_or_one (num / den) with heven | hodd
        · rw [heven, Nat.add_zero]
          omega
        · rw [hodd]
          omega
  have hlow : (2 * num : ℚ) ≤ 2 * (divEven num den * den) + den := by exact_mod_cast key.1
  have hhigh : (2 * (divEven num den * den) : ℚ) ≤ 2 * num + den := by exact_mod_cast key.2
  rw [sub_le_iff_le_add, div_le_iff₀ hden', ← sub_le_iff_le_add, le_div_iff₀ hden']
  constructor <;> linarith

/-- Taking zeros into the exponent does not change the number. -/
theorem Decimal.normalize_value (d : Decimal) : d.normalize.value = d.value := by
  fun_induction Decimal.normalize d with
  | case1 d h ih =>
    obtain ⟨n, hn⟩ := Nat.dvd_of_mod_eq_zero h.2
    rw [ih]
    simp only [Decimal.value, hn, Nat.mul_div_cancel_left n (by decide : 0 < 10)]
    rw [zpow_add₀ (by norm_num), zpow_one]
    push_cast
    ring
  | case2 => rfl

/-- **The test for reading back decides** whether a decimal number rounds to a float. -/
theorem readsBack_iff (m : Nat) (e : Int) (digits : Nat) (place : Int) :
    readsBack .double m e digits place = true ↔ RoundsTo (Decimal.value ⟨digits, place⟩) m e := by
  have hunit := ten_zpow_pos place
  have hden := scaled_den_pos 1 (e - 2)
  have hscaled : ∀ bound : Nat, ((bound * (scaled 1 (e - 2)).1 : Nat) : ℚ) / (scaled 1 (e - 2)).2 =
      bound * 2 ^ (e - 2) := by
    intro bound
    rw [Nat.cast_mul, mul_div_assoc, scaled_value, Nat.cast_one, one_mul]
  -- a bound over the power of ten, compared with the digits
  have hle : ∀ bound : Nat,
      (downscaled (bound * (scaled 1 (e - 2)).1) (scaled 1 (e - 2)).2 place).1 ≤
          digits * (downscaled (bound * (scaled 1 (e - 2)).1) (scaled 1 (e - 2)).2 place).2 ↔
        (bound : ℚ) * 2 ^ (e - 2) ≤ digits * 10 ^ place := by
    intro bound
    have hpos : (0 : ℚ) < (downscaled (bound * (scaled 1 (e - 2)).1) (scaled 1 (e - 2)).2 place).2 := by
      exact_mod_cast downscaled_den_pos hden place
    rw [← div_le_iff₀ hunit, ← hscaled, ← downscaled_value hden, div_le_iff₀ hpos]
    exact_mod_cast Iff.rfl
  have hge : ∀ bound : Nat,
      digits * (downscaled (bound * (scaled 1 (e - 2)).1) (scaled 1 (e - 2)).2 place).2 ≤
          (downscaled (bound * (scaled 1 (e - 2)).1) (scaled 1 (e - 2)).2 place).1 ↔
        (digits : ℚ) * 10 ^ place ≤ bound * 2 ^ (e - 2) := by
    intro bound
    have hpos : (0 : ℚ) < (downscaled (bound * (scaled 1 (e - 2)).1) (scaled 1 (e - 2)).2 place).2 := by
      exact_mod_cast downscaled_den_pos hden place
    rw [← le_div_iff₀ hunit, ← hscaled, ← downscaled_value hden, le_div_iff₀ hpos]
    exact_mod_cast Iff.rfl
  rw [readsBack, RoundsTo, Decimal.value]
  simp only []
  split
  · rename_i heven
    simp only [Bool.and_eq_true, decide_eq_true_eq, hle, hge, heven, true_or, and_true]
  · rename_i hodd
    simp only [Bool.and_eq_true, decide_eq_true_eq, ← not_le, hle, hge, hodd, false_or]
    simp only [not_le]
    exact ⟨fun h => ⟨h.1.le, h.2.le, h⟩, fun h => h.2.2⟩

/-- The first significant digits are at most a half of the last place away. -/
theorem significant_near (count m : Nat) (e : Int) :
    (m : ℚ) * 2 ^ e - 10 ^ (order (scaled m e).1 (scaled m e).2 - count) / 2 ≤
        (significant count m e).value ∧
      (significant count m e).value ≤
        (m : ℚ) * 2 ^ e + 10 ^ (order (scaled m e).1 (scaled m e).2 - count) / 2 := by
  have hden := scaled_den_pos m e
  have hdigits : significant count m e =
      Decimal.normalize ⟨divEven
        (downscaled (scaled m e).1 (scaled m e).2 (order (scaled m e).1 (scaled m e).2 - count)).1
        (downscaled (scaled m e).1 (scaled m e).2 (order (scaled m e).1 (scaled m e).2 - count)).2,
        order (scaled m e).1 (scaled m e).2 - count⟩ := rfl
  rw [hdigits, Decimal.normalize_value, Decimal.value]
  generalize order (scaled m e).1 (scaled m e).2 - count = place
  have hten := ten_zpow_pos place
  obtain ⟨hlow, hhigh⟩ := divEven_near (downscaled (scaled m e).1 (scaled m e).2 place).1
    (downscaled_den_pos hden place)
  rw [downscaled_value hden, scaled_value, div_sub' hten.ne', div_le_iff₀ hten] at hlow
  rw [downscaled_value hden, scaled_value, div_add' _ _ _ hten.ne', le_div_iff₀ hten] at hhigh
  constructor <;> linarith

section Shortest

variable {m : Nat} {e : Int} (hc : Canonical m e)

include hc

/-- A number close to a float rounds to it. -/
theorem roundsTo_of_near {v : ℚ} (hlow : ((m : ℚ) - 1 / 4) * 2 ^ e < v)
    (hhigh : v < ((m : ℚ) + 1 / 4) * 2 ^ e) : RoundsTo v m e := by
  have hunit := two_zpow_pos e
  have hquarter : (2 : ℚ) ^ (e - 2) = 2 ^ e / 4 := by
    rw [zpow_sub₀ (by norm_num)]
    norm_num
  have hpos := hc.pos
  have hbounds : (quarterBounds .double m e).1 ≤ 4 * m - 1 ∧
      (quarterBounds .double m e).2 = 4 * m + 2 := by
    rw [quarterBounds]
    split
    · exact ⟨le_rfl, rfl⟩
    · exact ⟨by simp only []; omega, rfl⟩
  have hlow' : ((quarterBounds .double m e).1 : ℚ) ≤ 4 * m - 1 := by
    have : ((quarterBounds .double m e).1 : ℚ) ≤ (4 * m - 1 : Nat) := by exact_mod_cast hbounds.1
    rw [Nat.cast_sub (by omega)] at this
    push_cast at this
    exact this
  have hbelow : ((quarterBounds .double m e).1 : ℚ) * 2 ^ (e - 2) < v := by
    rw [hquarter]
    calc ((quarterBounds .double m e).1 : ℚ) * (2 ^ e / 4) ≤ (4 * m - 1) * (2 ^ e / 4) :=
          mul_le_mul_of_nonneg_right hlow' (by linarith)
      _ = ((m : ℚ) - 1 / 4) * 2 ^ e := by ring
      _ < v := hlow
  have habove : v < ((quarterBounds .double m e).2 : ℚ) * 2 ^ (e - 2) := by
    rw [hquarter, hbounds.2]
    push_cast
    linarith
  exact ⟨hbelow.le, habove.le, .inr ⟨hbelow, habove⟩⟩

/-- The lengths of the parts of a float. -/
theorem Canonical.log2_scaled : 0 < (scaled m e).1 ∧ (scaled m e).1.log2 ≤ 2000 ∧
    (scaled m e).2.log2 ≤ 2000 := by
  have hpos := hc.pos
  have hleast := hc.least
  have hmost := hc.most
  have hm : m.log2 < 53 := (Nat.log2_lt hpos.ne').2 hc.lt
  rw [scaled]
  split
  · refine ⟨Nat.mul_pos hpos (Nat.two_pow_pos _), ?_, ?_⟩
    · have hlt : m * 2 ^ e.toNat < 2 ^ (53 + e.toNat) := by
        rw [Nat.pow_add]
        exact Nat.mul_lt_mul_of_pos_right hc.lt (Nat.two_pow_pos _)
      have hlog := (Nat.log2_lt (Nat.mul_pos hpos (Nat.two_pow_pos _)).ne').2 hlt
      show (m * 2 ^ e.toNat).log2 ≤ 2000
      omega
    · show (1 : Nat).log2 ≤ 2000
      decide
  · refine ⟨hpos, by simp only []; omega, ?_⟩
    simp only []
    rw [Nat.log2_two_pow]
    omega

/-- **Eighteen digits suffice.** -/
theorem significant_roundsTo : RoundsTo (significant 18 m e).value m e := by
  have hden := scaled_den_pos m e
  obtain ⟨hnum, hshort, hshort'⟩ := hc.log2_scaled
  have horder := order_le hnum hden hshort hshort'
  have hunit := two_zpow_pos e
  rw [scaled_value] at horder
  generalize hplace : order (scaled m e).1 (scaled m e).2 - (18 : Nat) = place at horder
  have hten := ten_zpow_pos place
  obtain ⟨hlow, hhigh⟩ := significant_near 18 m e
  rw [hplace] at hlow hhigh
  -- the last of the eighteen places is far below the last digit of the float
  have hsmall : (10 : ℚ) ^ place * 10 ^ 17 < 2 ^ 53 * 2 ^ e := by
    calc (10 : ℚ) ^ place * 10 ^ 17 = 10 ^ (order (scaled m e).1 (scaled m e).2 - 1) := by
          rw [← hplace, ← zpow_natCast, ← zpow_add₀ (by norm_num)]
          congr 1
          push_cast
          ring
      _ ≤ m * 2 ^ e := horder
      _ < 2 ^ 53 * 2 ^ e := mul_lt_mul_of_pos_right (by exact_mod_cast hc.lt) hunit
  have hfar : (10 : ℚ) ^ place < 2 ^ e / 4 := by
    have : (2 : ℚ) ^ 53 * 4 < 10 ^ 17 := by norm_num
    nlinarith
  exact roundsTo_of_near hc (by linarith) (by linarith)

/-- **Of the decimal numbers of more and more digits one reads back.** The digits are counted up to
eighteen. -/
theorem shortestFrom_roundsTo (order : Int) (num den : Nat) {fuel count : Nat}
    (hcount : fuel + count = 18) :
    RoundsTo (shortestFrom .double m e num den order fuel count).value m e := by
  induction fuel generalizing count with
  | zero =>
    obtain rfl : count = 18 := by omega
    exact significant_roundsTo hc
  | succ fuel ih =>
    rw [shortestFrom]
    simp only []
    split
    · rename_i hfits
      rw [Bool.and_eq_true, readsBack_iff, readsBack_iff] at hfits
      rcases divEven_eq_or (downscaled num den (order - count)).1
        (downscaled num den (order - count)).2 with heq | heq
      · rw [heq]
        exact hfits.1
      · rw [heq]
        exact hfits.2
    · split
      · rename_i hfits
        exact (readsBack_iff _ _ _ _).1 hfits
      · split
        · rename_i hfits
          exact (readsBack_iff _ _ _ _).1 hfits
        · exact ih (by omega)

/-- A float has no more digits than are kept. -/
theorem narrowed_eq : Precision.double.narrowed m e = (m, e) := by
  have hleast := hc.least
  have hlog : m.log2 < 53 := (Nat.log2_lt hc.pos.ne').2 hc.lt
  have hlast : max Precision.double.least (m.log2 + e - Precision.double.bits) = e := by
    show max (-1074) ((m.log2 : Int) + e - (52 : Nat)) = e
    rcases hc.full with hfull | rfl
    · have := (Nat.le_log2 hc.pos.ne').2 hfull
      omega
    · omega
  rw [Precision.narrowed]
  simp only [hlast]
  simp

/-- **The shortest decimal number reads back.** -/
theorem shortest_roundsTo : RoundsTo (shortest .double m e).value m e := by
  rw [shortest, narrowed_eq hc]
  simp only []
  rw [Decimal.normalize_value]
  exact shortestFrom_roundsTo hc _ _ _ rfl

end Shortest

end ChartScript.Number
