import PocketCalculator.Proofs.Binary.Finite

/-!
# Results that need no rounding

Rounding changes nothing about a number that a float can hold, whatever mantissa and exponent it is
given by (`round_exact`). So a product or a quotient that a float can hold is computed exactly
(`mul_exact`, `div_exact`).
-/

namespace PocketCalculator.Binary

open Float.Model (Format UnpackedFloat totalExponent)
open Float.Model.UnpackedFloat

/-! ## The place of the first digit -/

section TotalExponent

variable {m m' : Nat} {e e' : Int}

theorem zpow_two_pos (n : Int) : (0 : ℚ) < 2 ^ n := by
  positivity

theorem pow_toNat {n : Int} (h : 0 ≤ n) : (2 : ℚ) ^ n.toNat = 2 ^ n := by
  rw [← zpow_natCast, Int.toNat_of_nonneg h]

theorem zpow_totalExponent_le (pos : 0 < m) :
    (2 : ℚ) ^ (totalExponent m e - 1) ≤ m * 2 ^ e := by
  have hlog : ((2 ^ m.log2 : ℕ) : ℚ) ≤ m := by
    exact_mod_cast Nat.log2_self_le (Nat.ne_of_gt pos)
  have hsplit : totalExponent m e - 1 = m.log2 + e := by
    rw [totalExponent]
    ring
  rw [hsplit, zpow_add₀ (by norm_num), zpow_natCast]
  push_cast at hlog
  exact mul_le_mul_of_nonneg_right hlog (zpow_two_pos e).le

theorem lt_zpow_totalExponent (m : Nat) (e : Int) :
    (m : ℚ) * 2 ^ e < 2 ^ totalExponent m e := by
  have hlog : (m : ℚ) < ((2 ^ (m.log2 + 1) : ℕ) : ℚ) := by
    exact_mod_cast Nat.lt_log2_self
  rw [totalExponent, zpow_add₀ (by norm_num)]
  push_cast at hlog
  exact_mod_cast mul_lt_mul_of_pos_right hlog (zpow_two_pos e)

/-- The first digit of a quotient is not before the place where those of its parts put it. -/
theorem totalExponent_le_add {m₁ m₂ : Nat} {e₁ e₂ : Int} (pos₁ : 0 < m₁)
    (h : (m₁ : ℚ) * 2 ^ e₁ = (m * 2 ^ e) * (m₂ * 2 ^ e₂)) :
    totalExponent m₁ e₁ ≤ totalExponent m e + totalExponent m₂ e₂ := by
  have hlt : (2 : ℚ) ^ (totalExponent m₁ e₁ - 1)
      < 2 ^ (totalExponent m e + totalExponent m₂ e₂) := by
    calc (2 : ℚ) ^ (totalExponent m₁ e₁ - 1) ≤ m₁ * 2 ^ e₁ := zpow_totalExponent_le pos₁
      _ = (m * 2 ^ e) * (m₂ * 2 ^ e₂) := h
      _ < 2 ^ totalExponent m e * 2 ^ totalExponent m₂ e₂ :=
        mul_lt_mul'' (lt_zpow_totalExponent m e) (lt_zpow_totalExponent m₂ e₂) (by positivity)
          (by positivity)
      _ = 2 ^ (totalExponent m e + totalExponent m₂ e₂) := (zpow_add₀ (by norm_num) _ _).symm
  have hexponent := (zpow_lt_zpow_iff_right₀ (by norm_num)).mp hlt
  omega

/-- Numbers that are equal have their first digits at the same place. -/
theorem totalExponent_eq (pos : 0 < m) (pos' : 0 < m') (h : (m : ℚ) * 2 ^ e = m' * 2 ^ e') :
    totalExponent m e = totalExponent m' e' := by
  have hle : ∀ {a b : Nat} {i j : Int}, 0 < a → (a : ℚ) * 2 ^ i = b * 2 ^ j →
      totalExponent a i ≤ totalExponent b j := by
    intro a b i j ha hab
    have hlt := (zpow_totalExponent_le ha).trans_lt (hab ▸ lt_zpow_totalExponent b j)
    have hexponent := (zpow_lt_zpow_iff_right₀ (by norm_num)).mp hlt
    omega
  exact Int.le_antisymm (hle pos h) (hle pos' h.symm)

end TotalExponent

theorem targetExponent_eq (total : Int) :
    Format.binary64.targetExponent total = max (total - 53) (-1074) := by
  rw [Format.targetExponent]
  rfl

section Canonical

variable {mantissa m : Nat} {exponent e : Int}

theorem IsCanonical.targetExponent (h : IsCanonical mantissa exponent) :
    Format.binary64.targetExponent (totalExponent mantissa exponent) = exponent := by
  have hne := Nat.ne_of_gt h.pos
  have hlt := (Nat.log2_lt hne).mpr h.lt
  have hleast := h.least
  rw [targetExponent_eq, totalExponent]
  rcases h.full with hfull | hfull
  · have hle := (Nat.le_log2 hne).mpr hfull
    omega
  · omega

/-- With a smaller exponent, the same number has zeros behind its digits. -/
theorem value_shift (m : Nat) {e e' : Int} (h : e' ≤ e) :
    ((m * 2 ^ (e - e').toNat : ℕ) : ℚ) * 2 ^ e' = m * 2 ^ e := by
  push_cast
  rw [mul_assoc, pow_toNat (Int.sub_nonneg_of_le h), ← zpow_add₀ (by norm_num), Int.sub_add_cancel]

theorem mantissa_eq (he : e ≤ exponent) (h : (m : ℚ) * 2 ^ e = mantissa * 2 ^ exponent) :
    m = mantissa * 2 ^ (exponent - e).toNat := by
  rw [← value_shift mantissa he] at h
  exact_mod_cast mul_right_cancel₀ (zpow_two_pos e).ne' h

/-! ## Rounding -/

theorem shiftRight_exact (mantissa count : Nat) :
    ExtendedMantissa.ofMantissaAndAccuracy (mantissa * 2 ^ count) .exact >>> count
      = ExtendedMantissa.ofMantissaAndAccuracy mantissa .exact := by
  induction count generalizing mantissa with
  | zero =>
    rw [pow_zero, mul_one]
    rfl
  | succ count ih =>
    show ExtendedMantissa.shiftRightOne (ExtendedMantissa.ofMantissaAndAccuracy _ .exact >>> count)
      = _
    rw [pow_succ', ← mul_assoc, ih]
    simp [ExtendedMantissa.ofMantissaAndAccuracy, ExtendedMantissa.shiftRightOne]

theorem IsCanonical.shift_exact (hc : IsCanonical mantissa exponent) (he : e ≤ exponent)
    (h : (m : ℚ) * 2 ^ e = mantissa * 2 ^ exponent) :
    shiftToTargetExponent Format.binary64 m e .exact
      = (ExtendedMantissa.ofMantissaAndAccuracy mantissa .exact, exponent) := by
  have hm := mantissa_eq he h
  have pos : 0 < m := by
    rw [hm]
    exact Nat.mul_pos hc.pos (Nat.two_pow_pos _)
  rw [shiftToTargetExponent, totalExponent_eq pos hc.pos h, hc.targetExponent, shiftToExponent, hm,
    shiftRight_exact]
  congr 1
  omega

/-- **A number that a float can hold is not rounded.** -/
theorem IsCanonical.round_exact (hc : IsCanonical mantissa exponent) (he : e ≤ exponent)
    (h : (m : ℚ) * 2 ^ e = mantissa * 2 ^ exponent) (sign : Sign) :
    roundWithAccuracy Format.binary64 sign m e .exact = .finite sign mantissa exponent hc.pos := by
  have hagain := hc.shift_exact (Int.le_refl _) rfl
  rw [roundWithAccuracy, hc.shift_exact he h]
  dsimp only
  rw [show (ExtendedMantissa.ofMantissaAndAccuracy mantissa .exact).roundedMantissa = mantissa
    from rfl, hagain]
  exact dif_neg (Nat.ne_of_gt hc.pos)

/-! ## Products and quotients -/

section Operations

variable {m₁ m₂ : Nat} {e₁ e₂ : Int} {pos₁ : 0 < m₁} {pos₂ : 0 < m₂} {sign₁ sign₂ : Sign}

theorem IsCanonical.mul_exact (hc : IsCanonical mantissa exponent) (he : e₁ + e₂ ≤ exponent)
    (h : ((m₁ * m₂ : ℕ) : ℚ) * 2 ^ (e₁ + e₂) = mantissa * 2 ^ exponent) :
    mul Format.binary64 (.finite sign₁ m₁ e₁ pos₁) (.finite sign₂ m₂ e₂ pos₂)
      = .finite (sign₁ * sign₂) mantissa exponent hc.pos :=
  hc.round_exact he h _

theorem IsCanonical.div_exact (hc : IsCanonical mantissa exponent)
    (h : (m₁ : ℚ) * 2 ^ e₁ = (mantissa * 2 ^ exponent) * (m₂ * 2 ^ e₂)) :
    div Format.binary64 (.finite sign₁ m₁ e₁ pos₁) (.finite sign₂ m₂ e₂ pos₂)
      = .finite (sign₁ / sign₂) mantissa exponent hc.pos := by
  generalize ht : min (e₁ - e₂)
    (Format.binary64.targetExponent (totalExponent m₁ e₁ - totalExponent m₂ e₂)) = target
  have hle : target ≤ exponent := by
    have htotal := totalExponent_le_add pos₁ h
    have hown := hc.targetExponent
    rw [targetExponent_eq] at ht hown
    omega
  have hshift : target + e₂ ≤ e₁ := by omega
  -- The dividend is shifted so far that the quotient is the mantissa and zeros behind it.
  have hdividend : m₁ <<< (e₁ - e₂ - target).toNat
      = mantissa * 2 ^ (exponent - target).toNat * m₂ := by
    have hvalue : ((m₁ * 2 ^ (e₁ - (target + e₂)).toNat : ℕ) : ℚ) * 2 ^ (target + e₂)
        = (mantissa * m₂ : ℕ) * 2 ^ (exponent + e₂) := by
      rw [value_shift m₁ hshift, h, zpow_add₀ (by norm_num)]
      push_cast
      ring
    have heq := mantissa_eq (by omega) hvalue
    rw [Nat.shiftLeft_eq, show e₁ - e₂ - target = e₁ - (target + e₂) by omega, heq,
      show exponent + e₂ - (target + e₂) = exponent - target by omega, Nat.mul_right_comm]
  have hdiv : divCore Format.binary64 m₁ e₁ m₂ e₂
      = (mantissa * 2 ^ (exponent - target).toNat, target, .exact) := by
    rw [divCore]
    rw [ht, hdividend, Nat.mul_div_cancel _ pos₂, Nat.mul_mod_left]
    rfl
  rw [div, hdiv]
  exact hc.round_exact hle (value_shift mantissa hle) _

end Operations

end Canonical

end PocketCalculator.Binary
