import Mathlib.Tactic.IntervalCases
import PocketCalculator.Json.Read
import PocketCalculator.Json.Write

/-!
# Strings and numbers in JSON

What is written of a text or of an integer is read back, and the reader stops right behind it. A string
is read one escape at a time: each stands for the character it was written for (`readPieces_escape`).
Digits are read as far as they go, so a number needs to be followed by something that cannot go on
with it (`Stops`).
-/

namespace PocketCalculator.Json

open Text (Scanned)

/-! ## Strings -/

/-- The piece is a character of the text that it is joined into. -/
def Piece.StandsFor (piece : Piece) (c : Char) : Prop :=
  ∀ text rest, joinPieces? text (piece :: rest) = joinPieces? (c :: text) rest

theorem standsFor_char (c : Char) : (Piece.char c).StandsFor c :=
  fun _ _ => rfl

/-- A code unit below the surrogates is a character by itself. -/
theorem standsFor_unit {c : Char} (h : c.toNat < 0xD800) : (Piece.unit c.toNat).StandsFor c := by
  intro text rest
  have hhigh : isHighSurrogate c.toNat = false := by
    simp only [isHighSurrogate, Bool.and_eq_false_iff, decide_eq_false_iff_not]
    omega
  have hlow : isLowSurrogate c.toNat = false := by
    simp only [isLowSurrogate, Bool.and_eq_false_iff, decide_eq_false_iff_not]
    omega
  conv_lhs => rw [joinPieces?.eq_def]
  dsimp only
  rw [hhigh, hlow, if_neg nofun, if_neg nofun, Char.ofNat_toNat]

theorem hexValue?_hexDigit (n : Nat) : Text.hexValue? (hexDigit n) = some (n % 16) := by
  have hall : ∀ m < 16, Text.hexValue? (Nat.digitChar m) = some m := by decide
  exact hall (n % 16) (Nat.mod_lt n (by decide))

theorem readPieces_unit {n : Nat} (h : n < 0x100) (pieces : List Piece) (rest : Scanned) :
    readPieces pieces (some '\\' :: some 'u' :: some '0' :: some '0' :: some (hexDigit (n / 16)) ::
      some (hexDigit n) :: rest) = readPieces (.unit n :: pieces) rest := by
  have hzero : Text.hexValue? '0' = some 0 := rfl
  have hvalue : ((0 * 16 + 0) * 16 + n / 16 % 16) * 16 + n % 16 = n := by omega
  rw [readPieces]
  simp only [Option.bind_some, hzero, hexValue?_hexDigit, Option.bind_eq_bind, hvalue]

/-- **What stands for a character in a string is read as that character.** -/
theorem readPieces_escape (c : Char) :
    ∃ piece : Piece, piece.StandsFor c ∧ ∀ pieces rest,
      readPieces pieces ((escape c).map some ++ rest) = readPieces (piece :: pieces) rest := by
  unfold escape
  split
  case h_8 hquote hbackslash _ _ _ _ _ =>
    split
    · next hcontrol =>
      exact ⟨_, standsFor_unit (by omega), fun pieces rest => readPieces_unit (by omega) pieces rest⟩
    · next hcontrol =>
      refine ⟨_, standsFor_char c, fun pieces rest => ?_⟩
      have hplain : ¬ (c = '\\' ∨ c.toNat < 0x20) := fun h => h.elim hbackslash hcontrol
      simp only [List.map_cons, List.map_nil, List.cons_append, List.nil_append]
      rw [readPieces.eq_def]
      split <;> simp_all
  all_goals exact ⟨_, standsFor_char _, fun _ _ => rfl⟩

theorem readPieces_text (text : List Char) :
    ∃ found : List Piece, (∀ before, joinPieces? before found = some (before.reverse ++ text)) ∧
      ∀ pieces rest, readPieces pieces ((text.flatMap escape).map some ++ some '"' :: rest) =
        some (pieces.reverse ++ found, rest) := by
  induction text with
  | nil =>
    refine ⟨[], fun before => ?_, fun pieces rest => ?_⟩
    · rw [joinPieces?, List.append_nil]
    · rw [List.append_nil]
      rfl
  | cons c text ih =>
    obtain ⟨piece, hpiece, hread⟩ := readPieces_escape c
    obtain ⟨found, hfound, hmore⟩ := ih
    refine ⟨piece :: found, fun before => ?_, fun pieces rest => ?_⟩
    · rw [hpiece, hfound, List.reverse_cons, List.append_assoc, List.singleton_append]
    · rw [List.flatMap_cons, List.map_append, List.append_assoc, hread, hmore, List.reverse_cons,
        List.append_assoc, List.singleton_append]

theorem readString_text (text : List Char) (rest : Scanned) :
    readString ((text.flatMap escape).map some ++ some '"' :: rest) =
      some (some (String.ofList text), rest) := by
  obtain ⟨found, hfound, hread⟩ := readPieces_text text
  unfold readString
  rw [hread]
  simp only [Option.bind_eq_bind, Option.bind_some, List.reverse_nil, List.nil_append, hfound,
    Option.map_some]

/-! ## Integers -/

/-- What a number can go on with. -/
def goesOn : Option Char → Bool
  | some c => c.isDigit || c == '.' || c == 'e' || c == 'E'
  | none => false

/-- No number goes on with this text. -/
def Stops (rest : Scanned) : Prop :=
  ∀ item ∈ rest.head?, goesOn item = false

theorem stops_nil : Stops [] :=
  nofun

theorem stops_cons {item : Option Char} (h : goesOn item = false) (rest : Scanned) :
    Stops (item :: rest) := by
  intro other hother
  obtain rfl := Option.some.inj hother
  exact h

section Stops

variable {rest : Scanned} (h : Stops rest)
include h

theorem Stops.dropWhile_isDigit : rest.takeWhile isDigit = [] ∧ rest.dropWhile isDigit = rest := by
  cases rest with
  | nil => exact ⟨rfl, rfl⟩
  | cons item rest =>
    have hitem : isDigit item = false := by
      have hgoes := h item rfl
      cases item with
      | none => rfl
      | some c =>
        simp only [goesOn, Bool.or_eq_false_iff] at hgoes
        exact hgoes.1.1.1
    rw [List.takeWhile_cons, List.dropWhile_cons, hitem]
    exact ⟨rfl, rfl⟩

theorem Stops.skipFraction : skipFraction rest = some (false, rest) := by
  unfold Json.skipFraction
  split
  · exact absurd (h _ rfl) (by decide)
  · rfl

theorem Stops.skipExponent : skipExponent rest = some (false, rest) := by
  unfold Json.skipExponent
  split
  · exact absurd (h _ rfl) (by decide)
  · exact absurd (h _ rfl) (by decide)
  · rfl

/-- Digits are read up to where the text stops. -/
theorem Stops.readDigits {digits : List Char} (hne : digits ≠ [])
    (hall : ∀ c ∈ digits, c.isDigit = true) :
    readDigits (digits.map some ++ rest) = some (digits.map some, rest) := by
  have hdigits : ∀ item ∈ digits.map some, isDigit item = true := by
    intro item hitem
    obtain ⟨c, hc, rfl⟩ := List.mem_map.mp hitem
    exact hall c hc
  unfold Json.readDigits
  rw [List.takeWhile_append_of_pos hdigits, List.dropWhile_append_of_pos hdigits,
    h.dropWhile_isDigit.1, h.dropWhile_isDigit.2, List.append_nil]
  have hnonempty : (digits.map some).isEmpty = false := by
    rw [List.isEmpty_map, List.isEmpty_eq_false_iff]
    exact hne
  dsimp only
  rw [hnonempty, if_neg nofun]

end Stops

theorem digitsValue_map (digits : List Char) :
    digitsValue (digits.map some) = Nat.ofDigitChars 10 digits 0 := by
  rw [digitsValue, List.filterMap_map, Function.id_comp, List.filterMap_some]

theorem digitChar_ne_zero {n : Nat} (hpos : 0 < n) (h : n < 10) : Nat.digitChar n ≠ '0' := by
  interval_cases n <;> decide

/-- A number above zero is written without zeros in front. -/
theorem head?_toDigits_ne {n : Nat} (hpos : 0 < n) : ∀ c ∈ (Nat.toDigits 10 n).head?, c ≠ '0' := by
  induction n using Nat.strong_induction_on with
  | _ n ih =>
    rw [Nat.toDigits_eq_if (by decide)]
    split
    · next hsmall =>
      intro c hc
      obtain rfl := Option.some.inj hc
      exact digitChar_ne_zero hpos hsmall
    · next hlarge =>
      have hfirst := ih (n / 10) (Nat.div_lt_self hpos (by decide)) (by omega)
      obtain ⟨d, digits, hdigits⟩ :=
        List.exists_cons_of_ne_nil (Nat.toDigits_ne_nil (n := n / 10) (b := 10))
      rw [hdigits] at hfirst ⊢
      exact hfirst

theorem readNatural_toDigits {n : Nat} {rest : Scanned} (h : Stops rest) :
    readNatural ((Nat.toDigits 10 n).map some ++ rest) = some (n, rest) := by
  have hall : ∀ c ∈ Nat.toDigits 10 n, c.isDigit = true :=
    fun c hc => Nat.isDigit_of_mem_toDigits (by decide) (by decide) hc
  have hread := h.readDigits Nat.toDigits_ne_nil hall
  have hvalue : digitsValue ((Nat.toDigits 10 n).map some) = n := by
    rw [digitsValue_map, Nat.ofDigitChars_ten_toDigits]
  rcases Nat.eq_zero_or_pos n with rfl | hpos
  · rfl
  · unfold readNatural
    split
    · next more heq =>
      -- A zero in front would be the whole number.
      have hzero : '0' ∈ (Nat.toDigits 10 n).head? := by
        obtain ⟨c, digits, hdigits⟩ :=
          List.exists_cons_of_ne_nil (Nat.toDigits_ne_nil (n := n) (b := 10))
        rw [hdigits, List.map_cons, List.cons_append, List.cons.injEq, Option.some.injEq] at heq
        rw [hdigits, heq.1]
        rfl
      exact absurd rfl (head?_toDigits_ne hpos _ hzero)
    · rw [hread]
      simp only [Option.bind_eq_bind, Option.bind_some, hvalue]

theorem readNumber_toDigits (negative : Bool) {n : Nat} {rest : Scanned} (h : Stops rest) :
    readNumber negative ((Nat.toDigits 10 n).map some ++ rest) =
      some (if negative && n == 0 then real else integer (if negative then -n else n), rest) := by
  unfold readNumber
  rw [readNatural_toDigits h]
  simp only [Option.bind_eq_bind, Option.bind_some, h.skipFraction, h.skipExponent]
  rfl

end PocketCalculator.Json
