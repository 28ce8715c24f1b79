import ChartScript.Proofs.Numerals
import ChartScript.Proofs.Rounding

/-!
# Floats and their bits

A finite float has a mantissa and an exponent, and these are canonical
(`ChartScript.Number.canonical_of_unpack`). Canonical ones come back from the bits that they are put
away in (`ChartScript.Number.unpack_pack`), and the bits come back from the parts
(`ChartScript.Number.pack_unpack`). So a float is known when its parts are, which is how a rounded
number is recognized as a float that was there before.
-/

namespace ChartScript.Number

open Float.Model Float.Model.UnpackedFloat

/-! ### The three parts of the bits -/

theorem Sign.ofBitVec_toBitVec (sign : Sign) : Sign.ofBitVec sign.toBitVec = sign := by
  cases sign <;> rfl

theorem Sign.toBitVec_ofBitVec (bit : BitVec 1) : (Sign.ofBitVec bit).toBitVec = bit := by
  revert bit
  decide

/-- A row of bits is made of its parts. -/
theorem packComponents_parts (bits : BitVec Format.binary64.numBits) :
    packComponents Format.binary64 (Sign.ofBitVec (unpackSign bits)) (unpackExponent bits)
      (unpackMantissa bits) = bits := by
  rw [packComponents, Sign.toBitVec_ofBitVec]
  apply BitVec.eq_of_getLsbD_eq
  intro i hi
  change i < 1 + 11 + 52 at hi
  simp only [unpackSign, unpackExponent, unpackMantissa, BitVec.getLsbD_append, BitVec.getLsbD_cast,
    BitVec.extractLsb, BitVec.getLsbD_extractLsb']
  split
  · simp
    omega
  · split
    · rw [show 52 + (i - 52) = i by omega, decide_eq_true (by omega), Bool.true_and]
    · rw [show 52 + 11 + (i - 52 - 11) = i by omega, decide_eq_true (by omega), Bool.true_and]

/-- The exponent that is all ones. -/
theorem toNat_of_ne_ones {bits : BitVec 11} (h : bits ≠ -1#11) : bits.toNat < 2047 := by
  have hlt := bits.isLt
  by_contra hge
  exact h (BitVec.eq_of_toNat_eq (by
    show bits.toNat = 2047
    omega))

/-- The mantissa with its leading digit. -/
theorem toNat_leading (bits : BitVec 52) : (1#1 ++ bits).toNat = 2 ^ 52 + bits.toNat := by
  rw [BitVec.toNat_append, ← Nat.shiftLeft_add_eq_or_of_lt bits.isLt]
  simp [Nat.shiftLeft_eq]

/-! ### Mantissa and exponent -/

/-- **The bits of a finite number have a canonical mantissa and exponent.** -/
theorem canonical_of_unpackBits {bits : BitVec Format.binary64.numBits} {sign : Sign} {m : Nat}
    {e : Int} {hpos : 0 < m} (h : UnpackedFloat.unpack Format.binary64 bits = .finite sign m e hpos) :
    Canonical m e := by
  have hbias : (Format.binary64.exponentBias : Int) = 1023 := rfl
  simp only [UnpackedFloat.unpack] at h
  split at h
  · split at h <;> cases h
  · rename_i hones
    have hexp := toNat_of_ne_ones hones
    have hman : (unpackMantissa bits).toNat < 2 ^ 52 := (unpackMantissa bits).isLt
    split at h
    · rename_i hzero
      split at h
      · cases h
      · cases h
        rw [hzero] at hexp ⊢
        refine ⟨hpos, ?_, ?_, ?_, .inr ?_⟩
        · omega
        all_goals
          rw [hbias]
          simp
    · rename_i hzero
      have hne : (unpackExponent bits).toNat ≠ 0 := fun h0 => hzero (BitVec.eq_of_toNat_eq h0)
      cases h
      rw [toNat_leading, hbias] at *
      refine ⟨by omega, ?_, ?_, ?_, .inl ?_⟩ <;> omega

/-- What the parts of a row of bits with no exponent of all ones are unpacked to. -/
theorem unpack_packComponents (sign : Sign) {exponent : BitVec 11} (hones : exponent ≠ -1#11)
    (hzero : exponent ≠ 0#11) (mantissa : BitVec 52) {m : Nat} {e : Int} (hpos : 0 < m)
    (hm : 2 ^ 52 + mantissa.toNat = m) (he : (exponent.toNat : Int) - 1075 = e) :
    UnpackedFloat.unpack Format.binary64 (packComponents Format.binary64 sign exponent mantissa) =
      .finite sign m e hpos := by
  subst hm he
  simp only [UnpackedFloat.unpack, unpackExponent_packComponents, unpackMantissa_packComponents,
    unpackSign_packComponents, Sign.ofBitVec_toBitVec, if_neg hones, if_neg hzero, toNat_leading]
  rfl

/-- The same where the exponent is zero. -/
theorem unpack_packComponents_zero (sign : Sign) {mantissa : BitVec 52} {m : Nat} (hpos : 0 < m)
    (hm : mantissa.toNat = m) :
    UnpackedFloat.unpack Format.binary64 (packComponents Format.binary64 sign 0#11 mantissa) =
      .finite sign m (-1074) hpos := by
  subst hm
  have hones : 0#11 ≠ -1#11 := by decide
  have hzero : mantissa ≠ 0#52 := by
    rintro rfl
    simp at hpos
  simp only [UnpackedFloat.unpack, unpackExponent_packComponents, unpackMantissa_packComponents,
    unpackSign_packComponents, Sign.ofBitVec_toBitVec, if_neg hones, if_true, dif_neg hzero]
  rfl

/-- What a canonical mantissa and exponent are packed to. -/
theorem pack_canonical {m : Nat} {e : Int} (hc : Canonical m e) (sign : Sign) :
    UnpackedFloat.pack Format.binary64 (.finite sign m e hc.pos) =
      if 2 ^ 52 ≤ m then
        packComponents Format.binary64 sign (BitVec.ofNat 11 (e + 1075).toNat) (BitVec.ofNat 52 m)
      else packComponents Format.binary64 sign 0#11 (BitVec.ofNat 52 m) := by
  obtain ⟨hpos, hlt, hleast, hmost, -⟩ := hc
  have hbiased : (e + Format.binary64.exponentBias +
      Format.binary64.mantissaBitsWithoutImplicit).toNat = (e + 1075).toNat := by
    show (e + 1023 + 52).toNat = _
    congr 1
    ring
  have hroom : ¬ 2 ^ Format.binary64.exponentBits ≤ (e + 1075).toNat + 1 := by
    show ¬ 2 ^ 11 ≤ _
    omega
  simp only [UnpackedFloat.pack, hbiased, if_neg hroom]
  have hlog : m.log2 + 1 = Format.binary64.mantissaBits ↔ 2 ^ 52 ≤ m := by
    have hupper : m.log2 < 53 := (Nat.log2_lt hpos.ne').2 hlt
    rw [← Nat.le_log2 hpos.ne']
    show m.log2 + 1 = 53 ↔ _
    omega
  simp only [hlog]

/-- **A canonical mantissa and exponent come back from the bits.** -/
theorem unpackBits_packBits {m : Nat} {e : Int} (hc : Canonical m e) (sign : Sign) :
    UnpackedFloat.unpack Format.binary64 (UnpackedFloat.pack Format.binary64
      (.finite sign m e hc.pos)) = .finite sign m e hc.pos := by
  rw [pack_canonical hc]
  obtain ⟨hpos, hlt, hleast, hmost, hfull⟩ := hc
  split
  · rename_i hle
    have hexp : (BitVec.ofNat 11 (e + 1075).toNat).toNat = (e + 1075).toNat := by
      rw [BitVec.toNat_ofNat, Nat.mod_eq_of_lt (by omega)]
    refine unpack_packComponents sign ?_ ?_ _ hpos ?_ ?_
    · intro h
      have := congrArg BitVec.toNat h
      rw [hexp] at this
      change _ = 2047 at this
      omega
    · intro h
      have := congrArg BitVec.toNat h
      rw [hexp] at this
      change _ = 0 at this
      omega
    · rw [BitVec.toNat_ofNat]
      omega
    · rw [hexp]
      omega
  · rename_i hlt'
    obtain rfl : e = -1074 := hfull.resolve_left hlt'
    refine unpack_packComponents_zero sign hpos ?_
    rw [BitVec.toNat_ofNat]
    omega

/-- **The bits of a finite number come back from their parts.** -/
theorem packBits_unpackBits {bits : BitVec Format.binary64.numBits} {sign : Sign} {m : Nat}
    {e : Int} {hpos : 0 < m} (h : UnpackedFloat.unpack Format.binary64 bits = .finite sign m e hpos) :
    UnpackedFloat.pack Format.binary64 (.finite sign m e hpos) = bits := by
  have hc := canonical_of_unpackBits h
  have hparts := packComponents_parts bits
  have hbias : (Format.binary64.exponentBias : Int) = 1023 := rfl
  rw [pack_canonical hc, ← hparts]
  simp only [UnpackedFloat.unpack] at h
  split at h
  · split at h <;> cases h
  · rename_i hones
    have hman : (unpackMantissa bits).toNat < 2 ^ 52 := (unpackMantissa bits).isLt
    split at h
    · rename_i hzero
      split at h
      · cases h
      · cases h
        rw [if_neg (by omega), hzero]
        simp
    · cases h
      have hexp : ((unpackExponent bits).toNat - (Format.binary64.exponentBias +
          Format.binary64.mantissaBitsWithoutImplicit : Int) + 1075).toNat =
            (unpackExponent bits).toNat := by
        rw [hbias]
        show ((unpackExponent bits).toNat - (1023 + 52 : Int) + 1075).toNat = _
        omega
      have hman' : BitVec.ofNat 52 (2 ^ 52 + (unpackMantissa bits).toNat) = unpackMantissa bits := by
        apply BitVec.eq_of_toNat_eq
        rw [BitVec.toNat_ofNat, Nat.add_mod_left, Nat.mod_eq_of_lt hman]
      rw [toNat_leading, if_pos (by omega), hexp, hman', BitVec.ofNat_toNat, BitVec.setWidth_eq]

/-! ### Floats -/

/-- **A finite float has a canonical mantissa and exponent.** -/
theorem canonical_of_unpack {x : Float.Model} {sign : Sign} {m : Nat} {e : Int} {hpos : 0 < m}
    (h : x.unpack = .finite sign m e hpos) : Canonical m e := canonical_of_unpackBits h

/-- **A canonical mantissa and exponent come back.** -/
theorem unpack_pack {m : Nat} {e : Int} (hc : Canonical m e) (sign : Sign) :
    (Float.Model.pack (.finite sign m e hc.pos)).unpack = .finite sign m e hc.pos :=
  unpackBits_packBits hc sign

/-- **A float comes back from its parts.** There is one row of bits that is not a number. -/
theorem pack_unpack (x : Float.Model) : Float.Model.pack x.unpack = x := by
  have hbits : UnpackedFloat.pack Format.binary64
      (UnpackedFloat.unpack Format.binary64 x.toBits.toBitVec) = x.toBits.toBitVec := by
    have hparts := packComponents_parts x.toBits.toBitVec
    cases hu : UnpackedFloat.unpack Format.binary64 x.toBits.toBitVec with
    | finite sign m e hpos => exact packBits_unpackBits hu
    | notANumber =>
      simp only [UnpackedFloat.unpack] at hu
      split at hu
      · rename_i hones
        split at hu
        · cases hu
        · rename_i hman
          exact (x.valid.eq_packedNaN hones hman).symm
      · split at hu
        · split at hu <;> cases hu
        · cases hu
    | infinity sign =>
      simp only [UnpackedFloat.unpack] at hu
      split at hu
      · rename_i hones
        split at hu
        · rename_i hman
          cases hu
          rw [hones, hman] at hparts
          exact hparts
        · cases hu
      · split at hu
        · split at hu <;> cases hu
        · cases hu
    | zero sign =>
      simp only [UnpackedFloat.unpack] at hu
      split at hu
      · split at hu <;> cases hu
      · split at hu
        · rename_i hzero
          split at hu
          · rename_i hman
            cases hu
            rw [hzero, hman] at hparts
            exact hparts
          · cases hu
        · cases hu
  rw [Float.Model.pack]
  cases x
  congr 1
  exact congrArg UInt64.ofBitVec hbits

/-- **Floats with the same parts are the same.** -/
theorem eq_of_unpack_eq {x y : Float} (h : x.toModel.unpack = y.toModel.unpack) : x = y := by
  have hmodel : x.toModel = y.toModel := by rw [← pack_unpack x.toModel, h, pack_unpack]
  exact congrArg Float.ofModel hmodel

end ChartScript.Number
