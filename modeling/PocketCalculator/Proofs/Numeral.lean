import PocketCalculator.Buffer
import PocketCalculator.Numeral

/-!
# The shape of written numbers

A number is written without operators and with one point at most, but for a minus in front of it
(`Numeral.display_shape`). So a number on the display is an entry that can be edited
(`isWellFormed_display`).
-/

namespace PocketCalculator

/-- A text without operators and with one point at most. -/
structure IsOperand (text : List Char) : Prop where
  operators : ∀ c ∈ text, Glyph.isOperator c = false
  points : text.count '.' ≤ 1

theorem isOperator_of_isDigit {c : Char} (h : c.isDigit = true) : Glyph.isOperator c = false := by
  rw [Bool.eq_false_iff]
  intro hop
  simp only [Glyph.isOperator, Bool.or_eq_true, beq_iff_eq] at hop
  rcases hop with (((rfl | rfl) | rfl) | rfl) | rfl <;> exact absurd h (by decide)

theorem Decimal.isOperand_text (d : Decimal) : IsOperand d.text := by
  have hdigit : ∀ c ∈ d.digits, c.isDigit = true := fun c => isDigit_of_mem_digits
  have hop : ∀ c ∈ d.digits, Glyph.isOperator c = false :=
    fun c hc => isOperator_of_isDigit (hdigit c hc)
  have hpoint : ∀ chars : List Char, chars ⊆ d.digits → chars.count '.' = 0 := by
    intro chars hsub
    rw [List.count_eq_zero]
    intro hmem
    exact absurd (hdigit _ (hsub hmem)) (by decide)
  rw [Decimal.text]
  split
  · refine ⟨hop, ?_⟩
    rw [hpoint _ (List.Subset.refl _)]
    exact Nat.zero_le 1
  · constructor
    · intro c hc
      rcases List.mem_append.mp hc with hc | hc
      · exact hop c (List.mem_of_mem_take hc)
      · rcases List.mem_cons.mp hc with rfl | hc
        · decide
        · exact hop c (List.mem_of_mem_drop hc)
    · have htake := hpoint _ (List.take_subset (d.digits.length - d.places) d.digits)
      have hdrop := hpoint _ (List.drop_subset (d.digits.length - d.places) d.digits)
      simp only [List.count_append, List.count_cons_self, htake, hdrop]
      omega

namespace Numeral

theorem isOperand_inf : IsOperand ['i', 'n', 'f'] :=
  ⟨by simp [Glyph.isOperator], by simp⟩

theorem isOperand_nan : IsOperand ['N', 'a', 'N'] :=
  ⟨by simp [Glyph.isOperator], by simp⟩

theorem isOperand_zero : IsOperand ['0'] :=
  ⟨by simp [Glyph.isOperator], by simp⟩

theorem isOperand_magnitude (v : Float) : IsOperand (magnitude v) := by
  unfold magnitude
  split
  · exact isOperand_inf
  · split
    · exact isOperand_zero
    · exact Decimal.isOperand_text _

/-- **A number on the display is an operand**, with a minus in front of it if it is negative. -/
theorem display_shape (v : Float) :
    ∃ operand, IsOperand operand ∧ (display v = operand ∨ display v = '-' :: operand) := by
  unfold display text
  split
  · exact ⟨_, isOperand_zero, .inl rfl⟩
  · split
    · exact ⟨_, isOperand_nan, .inl rfl⟩
    · split
      · exact ⟨_, isOperand_magnitude v, .inr rfl⟩
      · exact ⟨_, isOperand_magnitude v, .inl rfl⟩

end Numeral

namespace Buffer

theorem continuesWell_operand {text : List Char} (h : ∀ c ∈ text, Glyph.isOperator c = false) :
    ∀ {points operators : Nat}, points + text.count '.' ≤ 1 →
      continuesWell points operators text = true := by
  induction text with
  | nil => exact fun _ => rfl
  | cons c text ih =>
    intro points operators hle
    obtain ⟨hc, htext⟩ := List.forall_mem_cons.mp h
    rw [continuesWell, hc, if_neg Bool.false_ne_true]
    by_cases hp : c = '.'
    · subst hp
      rw [List.count_cons_self] at hle
      have hpoints : points = 0 := by omega
      have hrest : continuesWell 1 0 text = true := ih htext (by omega)
      simp [hpoints, hrest]
    · rw [List.count_cons_of_ne hp] at hle
      rw [if_neg (by simpa using hp)]
      exact ih htext hle

/-- A number on the display is a well-formed entry. -/
theorem isWellFormed_display (v : Float) : (ofChars (Numeral.display v)).isWellFormed = true := by
  obtain ⟨operand, hoperand, hdisplay⟩ := Numeral.display_shape v
  have hle : 0 + operand.count '.' ≤ 1 := by
    rw [Nat.zero_add]
    exact hoperand.points
  by_cases hnil : Numeral.display v = []
  · rw [hnil]
    decide
  · rw [isWellFormed, chars_ofChars hnil]
    rcases hdisplay with h | h
    · rw [h]
      exact continuesWell_operand hoperand.operators hle
    · rw [h, continuesWell, if_pos (by decide)]
      exact continuesWell_operand hoperand.operators hle

end Buffer

end PocketCalculator
