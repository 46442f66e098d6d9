import PocketCalculator.Proofs.Binary.Layout

/-!
# Finite floats by their parts

A finite float other than zero has a sign, a mantissa and an exponent (`HasParts`), and no other has
the same (`HasParts.unique`). Negation and the magnitude change the sign alone.
-/

namespace PocketCalculator.Binary

open Float.Model (Format UnpackedFloat)
open Float.Model.UnpackedFloat

def word (v : Float) : Word :=
  v.toModel.toBits.toBitVec

/-- The float is unpacked into these parts. -/
def HasParts (v : Float) (sign : Sign) (mantissa : Nat) (exponent : Int) : Prop :=
  ∃ pos, v.toModel.unpack = .finite sign mantissa exponent pos

variable {v w : Float} {sign : Sign} {mantissa : Nat} {exponent : Int}

theorem HasParts.isCanonical (h : HasParts v sign mantissa exponent) :
    IsCanonical mantissa exponent := by
  obtain ⟨pos, h⟩ := h
  exact isCanonical_of_unpack h

/-- The float that is packed from a number in its form. -/
theorem hasParts_pack (h : IsCanonical mantissa exponent) (pos : 0 < mantissa) :
    HasParts (.ofModel (.pack (.finite sign mantissa exponent pos))) sign mantissa exponent :=
  ⟨pos, h.unpack_pack pos⟩

theorem HasParts.isFinite (h : HasParts v sign mantissa exponent) : v.isFinite = true := by
  obtain ⟨pos, h⟩ := h
  show v.toModel.unpack.isFinite = true
  rw [h]
  rfl

theorem HasParts.not_isNaN (h : HasParts v sign mantissa exponent) : v.isNaN = false := by
  obtain ⟨pos, h⟩ := h
  show v.toModel.unpack.isNaN = false
  rw [h]
  rfl

theorem HasParts.not_isInf (h : HasParts v sign mantissa exponent) : v.isInf = false := by
  obtain ⟨pos, h⟩ := h
  show v.toModel.unpack.isInf = false
  rw [h]
  rfl

theorem HasParts.unique (hv : HasParts v sign mantissa exponent)
    (hw : HasParts w sign mantissa exponent) : w = v := by
  obtain ⟨_, hv⟩ := hv
  obtain ⟨_, hw⟩ := hw
  have hbits := (unpack_inj_of_valid w.toModel.valid v.toModel.valid).mp (hw.trans hv.symm)
  exact Float.toBits_inj.mp (UInt64.toBitVec_inj.mp hbits)

theorem HasParts.ne_zero (h : HasParts v sign mantissa exponent) : v ≠ 0 ∧ v ≠ -0 := by
  obtain ⟨pos, h⟩ := h
  constructor <;> rintro rfl <;> cases h

/-- **Equal to a finite float other than zero is that float alone.** -/
theorem HasParts.eq_of_beq (hv : HasParts v sign mantissa exponent) (h : (w == v) = true) :
    w = v := by
  obtain ⟨-, -, heq | ⟨-, hzero⟩ | ⟨-, hzero⟩⟩ := Float.beq_iff_ne_nan_and_eq.mp h
  · exact heq
  · exact absurd hzero hv.ne_zero.2
  · exact absurd hzero hv.ne_zero.1

theorem HasParts.beq_self (h : HasParts v sign mantissa exponent) : (v == v) = true := by
  refine Float.beq_self_iff.mpr ?_
  rintro rfl
  obtain ⟨_, h⟩ := h
  cases h

theorem exists_hasParts (hfinite : v.isFinite = true) (hzero : (v == 0.0) = false) :
    ∃ sign mantissa exponent, HasParts v sign mantissa exponent := by
  change v.toModel.unpack.isFinite = true at hfinite
  change (v.toModel.unpack.compare (0.0 : Float).toModel.unpack == some .eq) = false at hzero
  cases hv : v.toModel.unpack with
  | notANumber | infinity =>
    rw [hv] at hfinite
    cases hfinite
  | zero s =>
    rw [hv, show (0.0 : Float).toModel.unpack = .zero .positive by rfl] at hzero
    cases hzero
  | finite s m e pos => exact ⟨s, m, e, pos, hv⟩

/-! ## Signs -/

theorem HasParts.abs (h : HasParts v sign mantissa exponent) :
    HasParts v.abs .positive mantissa exponent := by
  have hcanonical := h.isCanonical
  obtain ⟨pos, h⟩ := h
  show HasParts (.ofModel (.pack v.toModel.unpack.abs)) _ _ _
  rw [h]
  exact hasParts_pack hcanonical pos

theorem HasParts.neg (h : HasParts v sign mantissa exponent) :
    HasParts (-v) (-sign) mantissa exponent := by
  have hcanonical := h.isCanonical
  obtain ⟨pos, h⟩ := h
  show HasParts (.ofModel (.pack v.toModel.unpack.neg)) _ _ _
  rw [h]
  exact hasParts_pack hcanonical pos

/-- The magnitude as it is read from the bits. -/
theorem HasParts.ofFloat (h : HasParts v sign mantissa exponent) :
    Binary.ofFloat v = ⟨mantissa, exponent⟩ := by
  obtain ⟨pos, h⟩ := h
  have hbits : Binary.ofFloat v = if (unpackExponent (word v)).toNat = 0
      then ⟨(unpackMantissa (word v)).toNat, -1074⟩
      else ⟨(unpackMantissa (word v)).toNat + 2 ^ 52, (unpackExponent (word v)).toNat - 1075⟩ := by
    rw [toNat_unpackExponent, toNat_unpackMantissa]
    rfl
  rw [hbits]
  rcases (unpack_finite h).2 with ⟨hzero, rfl, rfl⟩ | ⟨hzero, -, rfl, rfl⟩
  · exact if_pos (congrArg BitVec.toNat hzero)
  · have hne : (unpackExponent (word v)).toNat ≠ 0 := fun hn => hzero (BitVec.eq_of_toNat_eq hn)
    rw [if_neg hne, Nat.add_comm]
    rfl

theorem HasParts.isNegative (h : HasParts v sign mantissa exponent) :
    Numeral.isNegative v = true ↔ sign = .negative := by
  obtain ⟨pos, h⟩ := h
  have hsign : Sign.ofBitVec (unpackSign (word v)) = sign := (unpack_finite h).1
  have hbit : Numeral.isNegative v = ((unpackSign (word v)).toNat == 1) := by
    rw [toNat_unpackSign]
    rfl
  rw [hbit, ← Sign.toBitVec_ofBitVec (unpackSign (word v)), hsign]
  cases sign with
  | negative => exact iff_of_true rfl rfl
  | positive => exact iff_of_false (by decide) nofun

end PocketCalculator.Binary
