import Mathlib
import PocketCalculator.Numeral

/-!
# The bits of a float

A finite float other than zero is a sign and a number `mantissa * 2 ^ exponent` in the one form that
its bits can hold (`IsCanonical`). What is unpacked from a float has that form, and a number in that
form is unpacked again after it is packed (`IsCanonical.unpack_pack`).
-/

namespace PocketCalculator.Binary

open Float.Model (Format UnpackedFloat)
open Float.Model.UnpackedFloat

/-- All bits of a float. -/
abbrev Word :=
  BitVec Format.binary64.numBits

/-- The form in which a float holds a number: with all digits that the mantissa has room for, unless
the exponent is the least one. -/
structure IsCanonical (mantissa : Nat) (exponent : Int) : Prop where
  pos : 0 < mantissa
  lt : mantissa < 2 ^ 53
  least : -1074 ≤ exponent
  greatest : exponent ≤ 971
  full : 2 ^ 52 ≤ mantissa ∨ exponent = -1074

/-! ## The three parts of a word -/

theorem toNat_unpackMantissa (w : Word) : (unpackMantissa w).toNat = w.toNat % 2 ^ 52 := by
  simp [unpackMantissa]

theorem toNat_unpackExponent (w : Word) :
    (unpackExponent w).toNat = w.toNat / 2 ^ 52 % 2 ^ 11 := by
  simp [unpackExponent, Nat.shiftRight_eq_div_pow]

theorem toNat_unpackSign (w : Word) : (unpackSign w).toNat = w.toNat / 2 ^ 63 := by
  have hlt : w.toNat / 2 ^ 63 < 2 := by
    have hw := w.isLt
    change w.toNat < 2 ^ 64 at hw
    omega
  have hsign : (unpackSign w).toNat = w.toNat / 2 ^ 63 % 2 := by
    simp [unpackSign, Nat.shiftRight_eq_div_pow]
  rw [hsign, Nat.mod_eq_of_lt hlt]

/-- The mantissa with the digit that is not written. -/
theorem toNat_one_append (m : BitVec 52) : (1#1 ++ m).toNat = 2 ^ 52 + m.toNat := by
  rw [BitVec.toNat_append, ← Nat.shiftLeft_add_eq_or_of_lt m.isLt]
  rfl

/-! ## Unpacking -/

theorem unpack_finite {w : Word} {sign : Sign} {mantissa : Nat} {exponent : Int}
    {pos : 0 < mantissa} (h : unpack Format.binary64 w = .finite sign mantissa exponent pos) :
    Sign.ofBitVec (unpackSign w) = sign ∧
      (unpackExponent w = 0#_ ∧ mantissa = (unpackMantissa w).toNat ∧ exponent = -1074 ∨
        unpackExponent w ≠ 0#_ ∧ unpackExponent w ≠ -1#_ ∧
        mantissa = 2 ^ 52 + (unpackMantissa w).toNat ∧
        exponent = (unpackExponent w).toNat - 1075) := by
  unfold unpack at h
  dsimp only at h
  split at h
  · split at h <;> cases h
  · next htop =>
    split at h
    · next hzero =>
      split at h
      · cases h
      · obtain ⟨hsign, hmantissa, hexponent⟩ := UnpackedFloat.finite.inj h
        refine ⟨hsign, .inl ⟨hzero, hmantissa.symm, ?_⟩⟩
        rw [← hexponent, hzero]
        rfl
    · next hzero =>
      obtain ⟨hsign, hmantissa, hexponent⟩ := UnpackedFloat.finite.inj h
      exact ⟨hsign, .inr ⟨hzero, htop, hmantissa.symm.trans (toNat_one_append _), hexponent.symm⟩⟩

/-- What is unpacked has the one form. -/
theorem isCanonical_of_unpack {w : Word} {sign : Sign} {mantissa : Nat} {exponent : Int}
    {pos : 0 < mantissa} (h : unpack Format.binary64 w = .finite sign mantissa exponent pos) :
    IsCanonical mantissa exponent := by
  have hmantissa := (unpackMantissa w).isLt
  change (unpackMantissa w).toNat < 2 ^ 52 at hmantissa
  rcases (unpack_finite h).2 with ⟨-, hm, he⟩ | ⟨hzero, htop, hm, he⟩
  · exact ⟨pos, by omega, by omega, by omega, .inr he⟩
  · have hlt := (unpackExponent w).isLt
    change (unpackExponent w).toNat < 2048 at hlt
    have hne : (unpackExponent w).toNat ≠ 0 := fun hn => hzero (BitVec.eq_of_toNat_eq hn)
    have hne' : (unpackExponent w).toNat ≠ 2047 := fun hn => htop (BitVec.eq_of_toNat_eq hn)
    exact ⟨pos, by omega, by omega, by omega, .inl (by omega)⟩

section Components

variable {sign : Sign} {e : BitVec 11} {m : BitVec 52}

theorem unpack_subnormal (hm : m ≠ 0#_) (pos : 0 < m.toNat) :
    unpack Format.binary64 (packComponents Format.binary64 sign 0#_ m)
      = .finite sign m.toNat (-1074) pos := by
  unfold unpack
  simp only [unpackExponent_packComponents, unpackMantissa_packComponents,
    unpackSign_packComponents, Sign.ofBitVec_toBitVec]
  rw [if_neg (by decide), if_pos trivial, dif_neg hm]
  rfl

theorem unpack_normal (htop : e ≠ -1#_) (hzero : e ≠ 0#_) (pos : 0 < 2 ^ 52 + m.toNat) :
    unpack Format.binary64 (packComponents Format.binary64 sign e m)
      = .finite sign (2 ^ 52 + m.toNat) (e.toNat - 1075) pos := by
  unfold unpack
  simp only [unpackExponent_packComponents, unpackMantissa_packComponents,
    unpackSign_packComponents, Sign.ofBitVec_toBitVec]
  rw [if_neg htop, if_neg hzero]
  simp only [← toNat_one_append]
  rfl

end Components

/-! ## Packing -/

namespace IsCanonical

variable {sign : Sign} {mantissa : Nat} {exponent : Int}

theorem pack_eq (h : IsCanonical mantissa exponent) (pos : 0 < mantissa) :
    pack Format.binary64 (.finite sign mantissa exponent pos)
      = packComponents Format.binary64 sign
        (if 2 ^ 52 ≤ mantissa then BitVec.ofNat 11 (exponent + 1075).toNat else 0#_)
        (BitVec.ofNat 52 mantissa) := by
  have hbiased : (exponent + Format.binary64.exponentBias
      + Format.binary64.mantissaBitsWithoutImplicit).toNat = (exponent + 1075).toNat := by
    show (exponent + 1023 + 52).toNat = _
    rw [Int.add_assoc]
    rfl
  have hfits : ¬ 2 ^ Format.binary64.exponentBits ≤ (exponent + 1075).toNat + 1 := by
    have hgreatest := h.greatest
    show ¬ 2048 ≤ _
    omega
  have hlog : mantissa.log2 + 1 = Format.binary64.mantissaBits ↔ 2 ^ 52 ≤ mantissa := by
    have hlt := (Nat.log2_lt (Nat.ne_of_gt pos)).mpr h.lt
    have hle := Nat.le_log2 (k := 52) (Nat.ne_of_gt pos)
    show mantissa.log2 + 1 = 53 ↔ _
    omega
  unfold pack
  dsimp only
  rw [hbiased, if_neg hfits]
  simp only [hlog]
  split <;> rfl

/-- **A number in its form is packed without loss.** -/
theorem unpack_pack (h : IsCanonical mantissa exponent) (pos : 0 < mantissa) :
    unpack Format.binary64 (pack Format.binary64 (.finite sign mantissa exponent pos))
      = .finite sign mantissa exponent pos := by
  have hlt := h.lt
  have hmantissa : (BitVec.ofNat 52 mantissa).toNat = mantissa % 2 ^ 52 := BitVec.toNat_ofNat ..
  rw [h.pack_eq pos]
  split
  · next hbig =>
    have hleast := h.least
    have hgreatest := h.greatest
    have hexponent : (BitVec.ofNat 11 (exponent + 1075).toNat).toNat = (exponent + 1075).toNat := by
      rw [BitVec.toNat_ofNat]
      omega
    have htop : BitVec.ofNat 11 (exponent + 1075).toNat ≠ -1#_ := by
      intro heq
      have heq' : _ = 2047 := congrArg BitVec.toNat heq
      omega
    have hzero : BitVec.ofNat 11 (exponent + 1075).toNat ≠ 0#_ := by
      intro heq
      have heq' : _ = 0 := congrArg BitVec.toNat heq
      omega
    rw [unpack_normal htop hzero (by omega)]
    congr 1 <;> omega
  · next hsmall =>
    have hne : BitVec.ofNat 52 mantissa ≠ 0#_ := by
      intro heq
      have heq' : _ = 0 := congrArg BitVec.toNat heq
      omega
    have hfull := h.full
    rw [unpack_subnormal hne (by omega)]
    congr 1 <;> omega

end IsCanonical

end PocketCalculator.Binary
