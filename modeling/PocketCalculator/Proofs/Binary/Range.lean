import PocketCalculator.Proofs.Binary.Rounding

/-!
# Quotients that stay in range

A number is packed as a finite float if its exponent is not above the greatest one
(`isFinite_pack`). Rounding adds one digit in front at most, so what has its first digit below the
last place of all stays finite when it is rounded (`isFinite_round`). To divide by two or more moves
the first digit back by one place at least: a finite float has a finite quotient (`isFinite_div`).
-/

namespace PocketCalculator.Binary

open Float.Model (Format UnpackedFloat totalExponent)
open Float.Model.UnpackedFloat

/-! ## Packing -/

theorem isFinite_unpack_packComponents {sign : Sign} {e : BitVec 11} {m : BitVec 52}
    (h : e ≠ -1#_) :
    (unpack Format.binary64 (packComponents Format.binary64 sign e m)).isFinite = true := by
  unfold unpack
  simp only [unpackExponent_packComponents]
  rw [if_neg h]
  split
  · split <;> rfl
  · rfl

theorem isFinite_pack_zero (sign : Sign) :
    (unpack Format.binary64 (pack Format.binary64 (.zero sign))).isFinite = true :=
  isFinite_unpack_packComponents (by decide)

theorem isFinite_pack {mantissa : Nat} {exponent : Int} (sign : Sign) (pos : 0 < mantissa)
    (h : exponent ≤ 971) :
    (unpack Format.binary64 (pack Format.binary64 (.finite sign mantissa exponent pos))).isFinite
      = true := by
  have hbiased : (exponent + Format.binary64.exponentBias
      + Format.binary64.mantissaBitsWithoutImplicit).toNat ≤ 2046 := by
    show (exponent + 1023 + 52).toNat ≤ 2046
    omega
  have hfits : ¬ 2 ^ Format.binary64.exponentBits ≤ (exponent + Format.binary64.exponentBias
      + Format.binary64.mantissaBitsWithoutImplicit).toNat + 1 := by
    show ¬ 2048 ≤ _
    omega
  unfold pack
  dsimp only
  rw [if_neg hfits]
  split
  · refine isFinite_unpack_packComponents fun heq => ?_
    have heq' := congrArg BitVec.toNat heq
    rw [BitVec.toNat_ofNat, Nat.mod_eq_of_lt (Nat.lt_of_le_of_lt hbiased (by decide))] at heq'
    change _ = 2047 at heq'
    omega
  · exact isFinite_unpack_packComponents (by decide)

/-! ## Rounding -/

theorem shiftRight_mantissa (em : ExtendedMantissa) (count : Nat) :
    (em >>> count).mantissa = em.mantissa / 2 ^ count := by
  induction count with
  | zero => exact (Nat.div_one _).symm
  | succ count ih =>
    show (em >>> count).mantissa / 2 = _
    rw [ih, Nat.div_div_eq_div_mul, pow_succ]

theorem roundedMantissa_le (em : ExtendedMantissa) : em.roundedMantissa ≤ em.mantissa + 1 := by
  have hodd := Nat.mod_lt em.mantissa (show 2 > 0 by decide)
  rcases em with ⟨mantissa, roundBit, stickyBit⟩
  cases roundBit <;> cases stickyBit
  · exact Nat.le_succ _
  · exact Nat.le_succ _
  · show mantissa + mantissa % 2 ≤ mantissa + 1
    omega
  · exact Nat.le_refl _

section Round

variable {mantissa : Nat} {exponent : Int} {accuracy : Accuracy}

/-- The mantissa that is left for rounding fits, and so does the one that is rounded up, but for one
digit. -/
theorem shifted_mantissa_lt (mantissa : Nat) (exponent : Int) (accuracy : Accuracy) :
    (shiftToTargetExponent Format.binary64 mantissa exponent accuracy).1.mantissa < 2 ^ 53 := by
  have htarget := targetExponent_eq (totalExponent mantissa exponent)
  rw [shiftToTargetExponent, shiftToExponent, shiftRight_mantissa, htarget, totalExponent]
  have hmantissa : (ExtendedMantissa.ofMantissaAndAccuracy mantissa accuracy).mantissa
      = mantissa := by
    rcases accuracy with - | order
    · rfl
    · cases order <;> rfl
  rw [hmantissa, Nat.div_lt_iff_lt_mul (Nat.two_pow_pos _), ← pow_add]
  refine Nat.lt_of_lt_of_le Nat.lt_log2_self (Nat.pow_le_pow_right (by decide) ?_)
  omega

theorem shifted_exponent (mantissa : Nat) (exponent : Int) (accuracy : Accuracy) :
    (shiftToTargetExponent Format.binary64 mantissa exponent accuracy).2
      = max exponent (max (totalExponent mantissa exponent - 53) (-1074)) := by
  rw [shiftToTargetExponent, targetExponent_eq, shiftToExponent]
  omega

/-- **Rounding keeps in range** what has a place left in front of its first digit. -/
theorem isFinite_round (sign : Sign) (he : exponent ≤ 970)
    (ht : totalExponent mantissa exponent ≤ 1023) :
    (unpack Format.binary64 (pack Format.binary64
      (roundWithAccuracy Format.binary64 sign mantissa exponent accuracy))).isFinite = true := by
  have hlt := shifted_mantissa_lt mantissa exponent accuracy
  have hexponent := shifted_exponent mantissa exponent accuracy
  rw [roundWithAccuracy]
  generalize shiftToTargetExponent Format.binary64 mantissa exponent accuracy = shifted at *
  have hrounded := roundedMantissa_le shifted.1
  have hlog : shifted.1.roundedMantissa.log2 < 54 := by
    by_cases hzero : shifted.1.roundedMantissa = 0
    · rw [hzero]
      decide
    · rw [Nat.log2_lt hzero]
      omega
  have hfinal := shifted_exponent shifted.1.roundedMantissa shifted.2 .exact
  dsimp only
  split
  · exact isFinite_pack_zero sign
  · refine isFinite_pack sign _ ?_
    rw [hfinal, totalExponent]
    omega

end Round

/-! ## Quotients -/

/-- The first digit of a quotient in whole numbers. -/
theorem log2_div_lt {dividend divisor places : Nat} (hdivisor : 0 < divisor)
    (hquotient : dividend / divisor ≠ 0) (hdividend : dividend < 2 ^ places) :
    (dividend / divisor).log2 + divisor.log2 < places := by
  refine (Nat.pow_lt_pow_iff_right (show 1 < 2 by decide)).mp ?_
  calc 2 ^ ((dividend / divisor).log2 + divisor.log2)
      = 2 ^ (dividend / divisor).log2 * 2 ^ divisor.log2 := pow_add ..
    _ ≤ dividend / divisor * divisor :=
        Nat.mul_le_mul (Nat.log2_self_le hquotient) (Nat.log2_self_le (Nat.ne_of_gt hdivisor))
    _ ≤ dividend := Nat.div_mul_le_self ..
    _ < 2 ^ places := hdividend

theorem IsCanonical.totalExponent_le {mantissa : Nat} {exponent : Int}
    (h : IsCanonical mantissa exponent) : totalExponent mantissa exponent ≤ 1024 := by
  have hlog := (Nat.log2_lt (Nat.ne_of_gt h.pos)).mpr h.lt
  have hgreatest := h.greatest
  rw [totalExponent]
  omega

/-- The quotient before it is rounded. Its first digit is where those of its parts put it, or one
place further in front. -/
theorem divCore_le {m₁ m₂ : Nat} {e₁ e₂ : Int} (pos₂ : 0 < m₂)
    (h₁ : totalExponent m₁ e₁ ≤ 1024) (h₂ : 2 ≤ totalExponent m₂ e₂) :
    (divCore Format.binary64 m₁ e₁ m₂ e₂).2.1 ≤ 970 ∧
      totalExponent (divCore Format.binary64 m₁ e₁ m₂ e₂).1
        (divCore Format.binary64 m₁ e₁ m₂ e₂).2.1 ≤ 1023 := by
  rw [divCore, targetExponent_eq]
  dsimp only
  generalize htarget : min (e₁ - e₂)
    (max (totalExponent m₁ e₁ - totalExponent m₂ e₂ - 53) (-1074)) = target
  simp only [totalExponent] at *
  have hle : target ≤ 970 := by omega
  refine ⟨hle, ?_⟩
  by_cases hzero : m₁ <<< (e₁ - e₂ - target).toNat / m₂ = 0
  · rw [hzero, show Nat.log2 0 = 0 from rfl]
    omega
  · have hdividend : m₁ <<< (e₁ - e₂ - target).toNat
        < 2 ^ (m₁.log2 + 1 + (e₁ - e₂ - target).toNat) := by
      rw [Nat.shiftLeft_eq, pow_add]
      exact Nat.mul_lt_mul_of_pos_right Nat.lt_log2_self (Nat.two_pow_pos _)
    have hlog := log2_div_lt pos₂ hzero hdividend
    omega

variable {v w : Float} {sign : Sign} {mantissa : Nat} {exponent : Int}

/-- **A quotient by two or more is finite** if the dividend is. -/
theorem isFinite_div (hv : v.isFinite = true) (hw : HasParts w sign mantissa exponent)
    (htwo : 2 ≤ totalExponent mantissa exponent) : (v / w).isFinite = true := by
  obtain ⟨pos, hw⟩ := hw
  change v.toModel.unpack.isFinite = true at hv
  show (unpack Format.binary64 (pack Format.binary64
    (div Format.binary64 v.toModel.unpack w.toModel.unpack))).isFinite = true
  rw [hw]
  cases hunpack : v.toModel.unpack with
  | notANumber | infinity =>
    rw [hunpack] at hv
    cases hv
  | zero s => exact isFinite_pack_zero _
  | finite s m e p =>
    have hbound := (isCanonical_of_unpack hunpack).totalExponent_le
    obtain ⟨hexponent, htotal⟩ := divCore_le pos hbound htwo
    exact isFinite_round _ hexponent htotal

theorem hasParts_hundred : HasParts 100.0 .positive (100 * 2 ^ 46) (-46) :=
  ⟨by decide, rfl⟩

/-- A hundredth of a finite float is finite. -/
theorem isFinite_hundredth (h : v.isFinite = true) : (v / 100.0).isFinite = true :=
  isFinite_div h hasParts_hundred (by decide)

end PocketCalculator.Binary
