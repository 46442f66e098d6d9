import Mathlib.Tactic.IntervalCases
import PocketCalculator.Text.Utf8

/-!
# Encoding and decoding

A text is decoded from the octets that it is encoded as (`decode_encode`). Each character is followed
through the decoder by itself: its first octet says how many follow and bounds the second, and the bounds
leave out no encoding of a character.
-/

namespace PocketCalculator.Text.Utf8

/-- The octets that a text is encoded as. -/
def encode (text : List Char) : List UInt8 :=
  text.flatMap String.utf8EncodeChar

/-! ## First octets -/

theorem begun?_two {n : Nat} (hlow : 0xC2 ≤ n) (hhigh : n < 0xE0) :
    begun? (UInt8.ofNat n) = some ⟨n - 0xC0, 1, 0x80, 0xBF⟩ := by
  interval_cases n <;> rfl

theorem begun?_three {n : Nat} (hlow : 0xE0 ≤ n) (hhigh : n < 0xF0) :
    begun? (UInt8.ofNat n) =
      some ⟨n - 0xE0, 2, if n = 0xE0 then 0xA0 else 0x80, if n = 0xED then 0x9F else 0xBF⟩ := by
  interval_cases n <;> rfl

theorem begun?_four {n : Nat} (hlow : 0xF0 ≤ n) (hhigh : n < 0xF5) :
    begun? (UInt8.ofNat n) =
      some ⟨n - 0xF0, 3, if n = 0xF0 then 0x90 else 0x80, if n = 0xF4 then 0x8F else 0xBF⟩ := by
  interval_cases n <;> rfl

theorem lt_ascii_iff {n : Nat} (hn : n < 256) : UInt8.ofNat n < 0x80 ↔ n < 0x80 := by
  rw [UInt8.lt_iff_toNat_lt, UInt8.toNat_ofNat', Nat.mod_eq_of_lt hn]
  rfl

theorem push_first {text : Scanned} {n : Nat} {pending : Pending} (hlow : 0x80 ≤ n) (hn : n < 256)
    (hbegun : begun? (UInt8.ofNat n) = some pending) :
    push ⟨text, none⟩ (UInt8.ofNat n) = ⟨text, some pending⟩ := by
  have hascii : ¬ UInt8.ofNat n < 0x80 := (lt_ascii_iff hn).not.mpr (Nat.not_lt_of_le hlow)
  dsimp only [push, first]
  rw [if_neg hascii, hbegun]

/-! ## Further octets -/

section Further

variable {text : Scanned} {bits owed m : Nat} {least greatest : UInt8}

/-- An octet within the bounds adds six bits to the character that is begun. -/
theorem push_within (hm : m < 0x40) (hleast : least.toNat ≤ m + 0x80)
    (hgreatest : m + 0x80 ≤ greatest.toNat) :
    push ⟨text, some ⟨bits, owed, least, greatest⟩⟩ (UInt8.ofNat (m + 0x80)) =
      if owed = 1 then ⟨some (Char.ofNat (bits * 0x40 + m)) :: text, none⟩
      else ⟨text, some ⟨bits * 0x40 + m, owed - 1, 0x80, 0xBF⟩⟩ := by
  have hnat : (UInt8.ofNat (m + 0x80)).toNat = m + 0x80 := by
    rw [UInt8.toNat_ofNat']
    omega
  have hwithin : (least ≤ UInt8.ofNat (m + 0x80) && UInt8.ofNat (m + 0x80) ≤ greatest) = true := by
    rw [Bool.and_eq_true, decide_eq_true_eq, decide_eq_true_eq, UInt8.le_iff_toNat_le,
      UInt8.le_iff_toNat_le, hnat]
    exact ⟨hleast, hgreatest⟩
  have hbits : (m + 0x80) % 0x40 = m := by omega
  dsimp only [push]
  rw [if_pos hwithin, hnat, hbits]

theorem push_more (howed : owed ≠ 1) (hm : m < 0x40) (hleast : least.toNat ≤ m + 0x80)
    (hgreatest : m + 0x80 ≤ greatest.toNat) :
    push ⟨text, some ⟨bits, owed, least, greatest⟩⟩ (UInt8.ofNat (m + 0x80)) =
      ⟨text, some ⟨bits * 0x40 + m, owed - 1, 0x80, 0xBF⟩⟩ := by
  rw [push_within hm hleast hgreatest, if_neg howed]

theorem le_greatest (hm : m < 0x40) : m + 0x80 ≤ (0xBF : UInt8).toNat := by
  show m + 0x80 ≤ 0xBF
  omega

theorem push_last (hm : m < 0x40) :
    push ⟨text, some ⟨bits, 1, 0x80, 0xBF⟩⟩ (UInt8.ofNat (m + 0x80)) =
      ⟨some (Char.ofNat (bits * 0x40 + m)) :: text, none⟩ := by
  rw [push_within hm (Nat.le_add_left ..) (le_greatest hm), if_pos rfl]

end Further

/-! ## Characters by the number of their octets -/

section Characters

variable (text : Scanned) {v : Nat}

theorem push_one (h : v ≤ 0x7F) :
    push ⟨text, none⟩ (UInt8.ofNat v) = ⟨some (Char.ofNat v) :: text, none⟩ := by
  have hascii : UInt8.ofNat v < 0x80 := (lt_ascii_iff (by omega)).mpr (by omega)
  have hnat : (UInt8.ofNat v).toNat = v := by
    rw [UInt8.toNat_ofNat']
    omega
  dsimp only [push, first]
  rw [if_pos hascii, hnat]

theorem push_two (hlow : 0x7F < v) (hhigh : v ≤ 0x7FF) :
    [UInt8.ofNat (v / 64 % 32 + 192), UInt8.ofNat (v % 64 + 128)].foldl push ⟨text, none⟩ =
      ⟨some (Char.ofNat v) :: text, none⟩ := by
  have hbits : (v / 64 % 32 + 192 - 0xC0) * 0x40 + v % 64 = v := by omega
  dsimp only [List.foldl]
  rw [push_first (by omega) (by omega) (begun?_two (by omega) (by omega)), push_last (by omega),
    hbits]

theorem push_three (hlow : 0x7FF < v) (hhigh : v ≤ 0xFFFF) (hvalid : v < 0xD800 ∨ 0xDFFF < v) :
    [UInt8.ofNat (v / 4096 % 16 + 224), UInt8.ofNat (v / 64 % 64 + 128),
      UInt8.ofNat (v % 64 + 128)].foldl push ⟨text, none⟩ =
      ⟨some (Char.ofNat v) :: text, none⟩ := by
  have hbits : ((v / 4096 % 16 + 224 - 0xE0) * 0x40 + v / 64 % 64) * 0x40 + v % 64 = v := by omega
  -- Below this would be an overlong encoding.
  have hleast : (if v / 4096 % 16 + 224 = 0xE0 then 0xA0 else 0x80 : UInt8).toNat ≤
      v / 64 % 64 + 0x80 := by
    split
    · show 0xA0 ≤ _
      omega
    · exact Nat.le_add_left ..
  -- Above this would be a surrogate.
  have hgreatest : v / 64 % 64 + 0x80 ≤
      (if v / 4096 % 16 + 224 = 0xED then 0x9F else 0xBF : UInt8).toNat := by
    split
    · show _ ≤ 0x9F
      omega
    · exact le_greatest (by omega)
  dsimp only [List.foldl]
  rw [push_first (by omega) (by omega) (begun?_three (by omega) (by omega)),
    push_more (by decide) (by omega) hleast hgreatest, push_last (by omega), hbits]

theorem push_four (hlow : 0xFFFF < v) (hvalid : v < 0x110000) :
    [UInt8.ofNat (v / 262144 % 8 + 240), UInt8.ofNat (v / 4096 % 64 + 128),
      UInt8.ofNat (v / 64 % 64 + 128), UInt8.ofNat (v % 64 + 128)].foldl push ⟨text, none⟩ =
      ⟨some (Char.ofNat v) :: text, none⟩ := by
  have hbits : (((v / 262144 % 8 + 240 - 0xF0) * 0x40 + v / 4096 % 64) * 0x40 + v / 64 % 64) * 0x40 +
      v % 64 = v := by
    omega
  -- Below this would be an overlong encoding.
  have hleast : (if v / 262144 % 8 + 240 = 0xF0 then 0x90 else 0x80 : UInt8).toNat ≤
      v / 4096 % 64 + 0x80 := by
    split
    · show 0x90 ≤ _
      omega
    · exact Nat.le_add_left ..
  -- Above this would be past the last code point.
  have hgreatest : v / 4096 % 64 + 0x80 ≤
      (if v / 262144 % 8 + 240 = 0xF4 then 0x8F else 0xBF : UInt8).toNat := by
    split
    · show _ ≤ 0x8F
      omega
    · exact le_greatest (by omega)
  dsimp only [List.foldl]
  rw [push_first (by omega) (by omega) (begun?_four (by omega) (by omega)),
    push_more (by decide) (by omega) hleast hgreatest,
    push_more (by decide) (by omega) (Nat.le_add_left ..) (le_greatest (by omega)),
    push_last (by omega), hbits]

theorem foldl_push_encode (c : Char) :
    (String.utf8EncodeChar c).foldl push ⟨text, none⟩ = ⟨some c :: text, none⟩ := by
  have hvalid : c.val.toNat < 0xD800 ∨ 0xDFFF < c.val.toNat ∧ c.val.toNat < 0x110000 := c.valid
  conv_rhs => rw [← Char.ofNat_toNat c]
  change _ = (⟨some (Char.ofNat c.val.toNat) :: text, none⟩ : Progress)
  unfold String.utf8EncodeChar
  generalize c.val.toNat = v at hvalid
  dsimp only
  split
  · exact push_one text ‹_›
  · split
    · exact push_two text (by omega) ‹_›
    · split
      · exact push_three text (by omega) ‹_› (by omega)
      · exact push_four text (by omega) (by omega)

end Characters

/-- **What is encoded is decoded.** -/
theorem decode_encode (text : List Char) : decode (encode text) = text.map some := by
  have hfold : ∀ before : Scanned, (encode text).foldl push ⟨before, none⟩ =
      ⟨(text.map some).reverse ++ before, none⟩ := by
    induction text with
    | nil => exact fun _ => rfl
    | cons c text ih =>
      intro before
      unfold encode at ih ⊢
      rw [List.flatMap_cons, List.foldl_append, foldl_push_encode, ih, List.map_cons,
        List.reverse_cons, List.append_assoc, List.singleton_append]
  unfold decode
  rw [hfold, List.append_nil]
  exact List.reverse_reverse _

end PocketCalculator.Text.Utf8
