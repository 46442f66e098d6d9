import PocketCalculator.Proofs.Binary.Rounding

/-!
# Decimals that floats can hold

A decimal that is exactly a float is read as that float (`hasParts_toFloat`): both ways of reading,
the quotient of two floats and the exact quotient that is rounded, end in a result that needs no
rounding. The exact expansion of a float is such a decimal (`value_toDecimal`), so the shortest decimal
of a finite float always reads back (`shortest_toFloat`).
-/

namespace PocketCalculator

open Float.Model (Format UnpackedFloat totalExponent)
open Float.Model.UnpackedFloat
open Binary (HasParts IsCanonical)

/-! ## The numbers that decimals are -/

def Decimal.value (d : Decimal) : ℚ :=
  d.unscaled / 10 ^ d.places

theorem Decimal.value_reduced (unscaled places : Nat) :
    (reduced unscaled places).value = unscaled / 10 ^ places := by
  induction places generalizing unscaled with
  | zero => rfl
  | succ places ih =>
    rw [reduced]
    split
    · next hzero =>
      have hten : (unscaled : ℚ) = (unscaled / 10 : ℕ) * 10 := by
        exact_mod_cast (Nat.div_mul_cancel (Nat.dvd_of_mod_eq_zero hzero)).symm
      rw [ih, hten, pow_succ, mul_div_mul_right _ _ (by norm_num)]
    · rfl

theorem Binary.value_toDecimal (mantissa : Nat) (exponent : Int) :
    (Binary.toDecimal ⟨mantissa, exponent⟩).value = mantissa * 2 ^ exponent := by
  unfold Binary.toDecimal
  dsimp only
  split
  · next hnonneg =>
    rw [Decimal.value, ← pow_toNat hnonneg, Nat.pow_eq]
    push_cast
    ring
  · next hneg =>
    have hexponent : (2 : ℚ) ^ exponent = (2 ^ exponent.natAbs)⁻¹ := by
      rw [← zpow_natCast, ← zpow_neg]
      congr 1
      omega
    have hten : (10 : ℚ) ^ exponent.natAbs = 5 ^ exponent.natAbs * 2 ^ exponent.natAbs := by
      rw [← mul_pow]
      norm_num
    rw [Decimal.value_reduced, hexponent, hten, Nat.pow_eq]
    push_cast
    field_simp

namespace Binary

/-! ## Whole numbers and powers of ten -/

section OfNat

variable {n count : Nat}

/-- A whole number with zeros behind it until the mantissa is full. -/
theorem isCanonical_ofNat (pos : 0 < n) (hwidth : n.log2 + count = 52) :
    IsCanonical (n * 2 ^ count) (-count) := by
  refine ⟨Nat.mul_pos pos (Nat.two_pow_pos _), ?_, by omega, by omega, .inl ?_⟩
  · calc n * 2 ^ count < 2 ^ (n.log2 + 1) * 2 ^ count :=
          Nat.mul_lt_mul_of_pos_right Nat.lt_log2_self (Nat.two_pow_pos _)
      _ = 2 ^ 53 := by
        rw [← pow_add]
        congr 1
        omega
  · calc 2 ^ 52 = 2 ^ n.log2 * 2 ^ count := by rw [← pow_add, hwidth]
      _ ≤ n * 2 ^ count := Nat.mul_le_mul_right _ (Nat.log2_self_le (Nat.ne_of_gt pos))

theorem normalize_ofNat (pos : 0 < n) (hwidth : n.log2 + count = 52) :
    UnpackedFloat.normalize Format.binary64 n 0 .positive
      = .finite .positive (n * 2 ^ count) (-count) (isCanonical_ofNat pos hwidth).pos := by
  have htarget : Format.binary64.targetExponent (totalExponent n 0) = -count := by
    rw [targetExponent_eq, totalExponent]
    omega
  have hgt : compare (n : ℤ) 0 = .gt := Int.compare_eq_gt.mpr (by omega)
  have hshift : decreaseExponent n 0 (-count : ℤ) = (n * 2 ^ count, (-count : ℤ)) := by
    rw [decreaseExponent, Nat.shiftLeft_eq]
    simp
  rw [UnpackedFloat.normalize, hgt]
  show UnpackedFloat.round Format.binary64 .positive n 0 = _
  rw [UnpackedFloat.round, htarget, hshift]
  exact (isCanonical_ofNat pos hwidth).round_exact (Int.le_refl _) rfl _

/-- A whole number that fits into a mantissa is a float. -/
theorem hasParts_ofNat (pos : 0 < n) (hlt : n < 2 ^ 53) :
    ∃ mantissa exponent, HasParts n.toUInt64.toFloat .positive mantissa exponent ∧
      (mantissa : ℚ) * 2 ^ exponent = n := by
  have hlog := (Nat.log2_lt (Nat.ne_of_gt pos)).mpr hlt
  obtain ⟨count, hwidth⟩ : ∃ count, n.log2 + count = 52 := ⟨52 - n.log2, by omega⟩
  have hbits : n.toUInt64.toNat = n := by
    rw [Nat.toUInt64_eq, UInt64.toNat_ofNat']
    exact Nat.mod_eq_of_lt (Nat.lt_trans hlt (by decide))
  refine ⟨n * 2 ^ count, -count, ?_, ?_⟩
  · show HasParts (.ofModel (.pack
      (UnpackedFloat.normalize Format.binary64 (n.toUInt64.toNat : ℤ) 0 .positive))) _ _ _
    rw [hbits, normalize_ofNat pos hwidth]
    exact hasParts_pack (isCanonical_ofNat pos hwidth) _
  · rw [zpow_neg, zpow_natCast]
    push_cast
    field_simp

end OfNat

/-- The powers of ten that are kept as floats, part by part. -/
theorem powersOfTen_parts : ∀ index : Fin Float.exactlyRepresentablePowersOfTen.size,
    let v := Float.exactlyRepresentablePowersOfTen[index]
    v.isFinite = true ∧ (v == 0.0) = false ∧ Numeral.isNegative v = false ∧
      0 ≤ (ofFloat v).exponent + 52 ∧
      (ofFloat v).mantissa * 2 ^ ((ofFloat v).exponent + 52).toNat = 10 ^ index.val * 2 ^ 52 := by
  decide

theorem hasParts_powerOfTen {count : Nat} (h : count < Float.exactlyRepresentablePowersOfTen.size) :
    ∃ mantissa exponent,
      HasParts (Float.exactlyRepresentablePowersOfTen[count]) .positive mantissa exponent ∧
      (mantissa : ℚ) * 2 ^ exponent = 10 ^ count := by
  obtain ⟨hfinite, hzero, hpositive, hleast, hvalue⟩ := powersOfTen_parts ⟨count, h⟩
  dsimp only [Fin.getElem_fin] at hfinite hzero hpositive hleast hvalue
  obtain ⟨sign, mantissa, exponent, hparts⟩ := exists_hasParts hfinite hzero
  obtain rfl : sign = .positive := by
    cases sign with
    | positive => rfl
    | negative =>
      rw [hparts.isNegative.mpr rfl] at hpositive
      cases hpositive
  refine ⟨mantissa, exponent, hparts, ?_⟩
  rw [hparts.ofFloat] at hleast hvalue
  have hcast : (mantissa : ℚ) * 2 ^ (exponent + 52).toNat = 10 ^ count * 2 ^ 52 := by
    exact_mod_cast hvalue
  rw [pow_toNat hleast, zpow_add₀ (by norm_num), ← mul_assoc] at hcast
  exact mul_right_cancel₀ (by norm_num) hcast

/-! ## Reading -/

variable {mantissa : Nat} {exponent : Int}

theorem HasParts.div_exact {v w : Float} {sign₁ sign₂ : Sign} {m₁ m₂ : Nat} {e₁ e₂ : Int}
    (hv : HasParts v sign₁ m₁ e₁) (hw : HasParts w sign₂ m₂ e₂)
    (hc : IsCanonical mantissa exponent)
    (h : (m₁ : ℚ) * 2 ^ e₁ = (mantissa * 2 ^ exponent) * (m₂ * 2 ^ e₂)) :
    HasParts (v / w) (sign₁ / sign₂) mantissa exponent := by
  obtain ⟨_, hv⟩ := hv
  obtain ⟨_, hw⟩ := hw
  show HasParts (.ofModel (.pack (div Format.binary64 v.toModel.unpack w.toModel.unpack))) _ _ _
  rw [hv, hw, hc.div_exact h]
  exact hasParts_pack hc _

/-- A whole number has no more digits behind its point than the mantissa has. -/
theorem exponent_ge {n : Nat} (hc : IsCanonical mantissa exponent)
    (h : (n : ℚ) = mantissa * 2 ^ exponent) (pos : 0 < n) : -53 ≤ exponent := by
  have hone : (1 : ℚ) ≤ n := by exact_mod_cast pos
  have hmantissa : (mantissa : ℚ) < 2 ^ (53 : ℤ) := by exact_mod_cast hc.lt
  have hlt : (2 : ℚ) ^ (0 : ℤ) < 2 ^ (53 + exponent) := by
    calc (2 : ℚ) ^ (0 : ℤ) = 1 := zpow_zero 2
      _ ≤ mantissa * 2 ^ exponent := h ▸ hone
      _ < 2 ^ (53 : ℤ) * 2 ^ exponent := mul_lt_mul_of_pos_right hmantissa (zpow_two_pos exponent)
      _ = 2 ^ (53 + exponent) := (zpow_add₀ (by norm_num) _ _).symm
  have hsum := (zpow_lt_zpow_iff_right₀ (by norm_num)).mp hlt
  omega

section Scaled

variable {unscaled places : Nat} (hc : IsCanonical mantissa exponent)
  (h : (unscaled : ℚ) = (mantissa * 2 ^ exponent) * 10 ^ places)

include hc h

theorem unscaled_pos : 0 < unscaled := by
  have hmantissa : (0 : ℚ) < mantissa := by exact_mod_cast hc.pos
  have hpos : (0 : ℚ) < unscaled := by
    rw [h]
    positivity
  exact_mod_cast hpos

/-- The number of places is within what is looked at: no float is that small. -/
theorem places_le : places ≤ 2048 + unscaled.log2 := by
  have hmantissa : (1 : ℚ) ≤ mantissa := by exact_mod_cast hc.pos
  obtain ⟨depth, hdepth⟩ : ∃ depth : Nat, depth = 1074 := ⟨_, rfl⟩
  have hleast : (1 : ℚ) ≤ mantissa * 2 ^ exponent * 2 ^ depth := by
    have hpow : (1 : ℚ) ≤ 2 ^ (exponent + depth) :=
      one_le_zpow₀ (by norm_num) (by have := hc.least; omega)
    rw [zpow_add₀ (by norm_num), zpow_natCast] at hpow
    calc (1 : ℚ) = 1 * 1 := (one_mul 1).symm
      _ ≤ mantissa * (2 ^ exponent * 2 ^ depth) :=
        mul_le_mul hmantissa hpow zero_le_one (zero_le_one.trans hmantissa)
      _ = mantissa * 2 ^ exponent * 2 ^ depth := (mul_assoc ..).symm
  have hplaces : ((2 ^ (3 * places) : ℕ) : ℚ) ≤ ((unscaled * 2 ^ depth : ℕ) : ℚ) := by
    push_cast
    calc (2 : ℚ) ^ (3 * places) = 8 ^ places := by
          rw [pow_mul]
          norm_num
      _ ≤ 10 ^ places := pow_le_pow_left₀ (by norm_num) (by norm_num) _
      _ = 1 * 10 ^ places := (one_mul _).symm
      _ ≤ mantissa * 2 ^ exponent * 2 ^ depth * 10 ^ places :=
        mul_le_mul_of_nonneg_right hleast (by positivity)
      _ = unscaled * 2 ^ depth := by
        rw [h]
        ring
  have hlt : 2 ^ (3 * places) < 2 ^ (unscaled.log2 + 1 + depth) := by
    rw [pow_add 2 (unscaled.log2 + 1)]
    have hnat : 2 ^ (3 * places) ≤ unscaled * 2 ^ depth := by exact_mod_cast hplaces
    exact hnat.trans_lt (Nat.mul_lt_mul_of_pos_right Nat.lt_log2_self (Nat.two_pow_pos _))
  have hexponent := (Nat.pow_lt_pow_iff_right (by norm_num)).mp hlt
  omega

/-- The exact quotient is not rounded. -/
theorem ofScientific_exact :
    ofScientific Format.binary64 unscaled (Int.negOfNat places)
      = .finite .positive mantissa exponent hc.pos := by
  have hpos := unscaled_pos hc h
  have hplaces := places_le hc h
  have hneg : Int.negOfNat places = -(places : ℤ) := Int.negOfNat_eq
  have hlarge : ¬ (-(places : ℤ) > 2 ^ Format.binary64.exponentBits) := by
    show ¬ (-(places : ℤ) > 2048)
    omega
  have hsmall : ¬ (-(places : ℤ) < -((2 ^ Format.binary64.exponentBits : ℤ) + unscaled.log2)) := by
    show ¬ (-(places : ℤ) < -(2048 + unscaled.log2))
    omega
  rw [ofScientific, dif_neg (Nat.ne_of_gt hpos), hneg, if_neg hlarge, if_neg hsmall]
  by_cases hwhole : places = 0
  · subst hwhole
    rw [pow_zero, mul_one] at h
    rw [if_pos (by omega)]
    refine hc.mul_exact (exponent_ge hc h hpos) ?_
    rw [← h, Nat.shiftLeft_eq]
    show ((unscaled * 2 ^ 53 * 1 : ℕ) : ℚ) * 2 ^ (-53 : ℤ) = unscaled
    push_cast
    rw [mul_one, mul_assoc]
    norm_num
  · rw [if_neg (by omega)]
    refine hc.div_exact ?_
    rw [Int.neg_neg, Int.toNat_natCast, zpow_zero, mul_one, mul_one, h]
    push_cast
    rfl

end Scaled

/-- **A decimal that a float can hold is read as that float.** -/
theorem hasParts_toFloat {d : Decimal} (hc : IsCanonical mantissa exponent)
    (h : d.value = mantissa * 2 ^ exponent) : HasParts d.toFloat .positive mantissa exponent := by
  obtain ⟨unscaled, places⟩ := d
  have hscaled : (unscaled : ℚ) = (mantissa * 2 ^ exponent) * 10 ^ places := by
    rw [← h, Decimal.value]
    field_simp
  have hpos := unscaled_pos hc hscaled
  show HasParts (Float.ofScientific unscaled true places) _ _ _
  unfold Float.ofScientific
  split
  · next hfits =>
    obtain ⟨m₁, e₁, hdividend, hvalue₁⟩ := hasParts_ofNat hpos hfits.1
    obtain ⟨m₂, e₂, hdivisor, hvalue₂⟩ := hasParts_powerOfTen
      (show places < Float.exactlyRepresentablePowersOfTen.size from Nat.lt_succ_of_le hfits.2)
    refine hdividend.div_exact hdivisor hc ?_
    rw [hvalue₁, hvalue₂, hscaled]
  · show HasParts (.ofModel (.pack (ofScientific Format.binary64 unscaled (Int.negOfNat places)))) _ _ _
    rw [ofScientific_exact hc hscaled]
    exact hasParts_pack hc _

end Binary

namespace Decimal

/-- **The shortest decimal reads back.** Where none of few digits does, the exact expansion does. -/
theorem shortest_toFloat {v : Float} (hfinite : v.isFinite = true) (hzero : (v == 0.0) = false) :
    (shortest v).toFloat = v.abs := by
  obtain ⟨sign, mantissa, exponent, hv⟩ := Binary.exists_hasParts hfinite hzero
  rcases shortest_toFloat_beq v with hshort | hexact
  · exact hv.abs.eq_of_beq hshort
  · rw [hexact, hv.ofFloat]
    exact hv.abs.unique (Binary.hasParts_toFloat hv.isCanonical (Binary.value_toDecimal _ _))

end Decimal

end PocketCalculator
