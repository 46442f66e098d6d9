/-!
# Decimals

The numbers that a row of digits with at most one point can write. A `Decimal` keeps the count of
digits after the point, so that writing and reading are inverse to each other:
`Decimal.ofText?_text`.
-/

namespace PocketCalculator

/-- The number `unscaled / 10 ^ places`. -/
structure Decimal where
  unscaled : Nat
  places : Nat
  deriving DecidableEq, Repr

/-- A row of characters is taken whole where none of its kind follows. -/
theorem takeWhile_row {p : Char → Bool} {row rest : List Char} (hall : ∀ c ∈ row, p c = true)
    (hstop : ∀ c ∈ rest.head?, p c = false) :
    (row ++ rest).takeWhile p = row ∧ (row ++ rest).dropWhile p = rest := by
  rw [List.takeWhile_append_of_pos hall, List.dropWhile_append_of_pos hall]
  cases rest with
  | nil => simp
  | cons c rest => simp [hstop c rfl]

namespace Decimal

/-- The digits of the number without its point, with zeros in front so that at least one digit
stands before the point. -/
def digits (d : Decimal) : List Char :=
  let all := Nat.toDigits 10 d.unscaled
  List.replicate (d.places + 1 - all.length) '0' ++ all

/-- Digits, and a point where there are decimal places. -/
def text (d : Decimal) : List Char :=
  if d.places = 0 then d.digits
  else
    let whole := d.digits.length - d.places
    d.digits.take whole ++ '.' :: d.digits.drop whole

/-- Reads digits with at most one point. The point may stand first or last, but there has to be a
digit. -/
def ofText? (text : List Char) : Option Decimal :=
  let whole := text.takeWhile Char.isDigit
  match text.dropWhile Char.isDigit with
  | [] => if whole.isEmpty then none else some ⟨Nat.ofDigitChars 10 whole 0, 0⟩
  | '.' :: fraction =>
    if fraction.all Char.isDigit && !(whole ++ fraction).isEmpty then
      some ⟨Nat.ofDigitChars 10 (whole ++ fraction) 0, fraction.length⟩
    else none
  | _ => none

/-- The floating-point number nearest to the decimal, infinite where the decimal is out of
range. -/
def toFloat (d : Decimal) : Float :=
  Float.ofScientific d.unscaled true d.places

/-- The decimal with `unscaled` and `places` in its fewest places: zeros at the end of the fraction
are dropped. -/
def reduced (unscaled : Nat) : Nat → Decimal
  | 0 => ⟨unscaled, 0⟩
  | places + 1 =>
    if unscaled % 10 = 0 then reduced (unscaled / 10) places else ⟨unscaled, places + 1⟩

/-! ## Small facts -/

theorem digits_ne_nil (d : Decimal) : d.digits ≠ [] := by
  simp [digits, Nat.toDigits_ne_nil]

theorem isDigit_of_mem_digits {d : Decimal} {c : Char} (h : c ∈ d.digits) : c.isDigit = true := by
  simp only [digits, List.mem_append, List.mem_replicate] at h
  rcases h with ⟨_, rfl⟩ | h
  · decide
  · exact Nat.isDigit_of_mem_toDigits (by decide) (by decide) h

theorem lt_length_digits (d : Decimal) : d.places < d.digits.length := by
  simp only [digits, List.length_append, List.length_replicate]
  omega

theorem ofDigitChars_digits (d : Decimal) : Nat.ofDigitChars 10 d.digits 0 = d.unscaled := by
  simp [digits, Nat.ofDigitChars_append, Nat.ofDigitChars_ten_toDigits]

/-- What is written is read back, places included. -/
theorem ofText?_text (d : Decimal) : ofText? d.text = some d := by
  have hd : ∀ c ∈ d.digits, c.isDigit = true := fun c => isDigit_of_mem_digits
  obtain ⟨unscaled, places⟩ := d
  by_cases hp : places = 0
  · subst hp
    have h := @takeWhile_row Char.isDigit (Decimal.mk unscaled 0).digits [] hd (by simp)
    simp only [List.append_nil] at h
    simp [ofText?, text, h.1, h.2, digits_ne_nil, ofDigitChars_digits]
  · generalize hw : (Decimal.mk unscaled places).digits.length - places = whole
    have hl := lt_length_digits ⟨unscaled, places⟩
    have h := @takeWhile_row Char.isDigit ((Decimal.mk unscaled places).digits.take whole)
      ('.' :: (Decimal.mk unscaled places).digits.drop whole)
      (fun c hc => hd c (List.mem_of_mem_take hc)) (by simp)
    have ha : ((Decimal.mk unscaled places).digits.drop whole).all Char.isDigit = true := by
      simpa [List.all_eq_true] using fun c hc => hd c (List.mem_of_mem_drop hc)
    simp only [ofText?, text, hp, if_false, hw, h.1, h.2]
    simp [ha, List.take_append_drop, digits_ne_nil, ofDigitChars_digits]
    simp only at hl
    omega

end Decimal

end PocketCalculator
