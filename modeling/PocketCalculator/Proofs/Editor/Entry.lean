import Mathlib.Data.List.Basic
import PocketCalculator.Proofs.Editor.AtEnd
import PocketCalculator.Proofs.Editor.Digits

/-!
# Entries keyed in from the left

`entry` is what an editor has after a text was keyed in character by character: the text, with the
cursor behind it. Many a key does more than to put its character behind the text, but not where the
character goes on with the text as it does in an expression; for those places the lemmas here say that
the key leads to the entry of the longer text, and `apply_of_formed` that the editor lets it through.
-/

namespace PocketCalculator.Editor

open Buffer (pointsBefore operatorsBefore before_operand)

/-- A text that was keyed in, in basic mode. -/
def entry (layout : Layout) (text : List Char) (opened : Bool) : Editor :=
  { initial with
    layout
    buffer := .ofChars text
    cursor := (Buffer.ofChars text).length
    bracketCloses := opened }

/-- A digit can stand there as it is. -/
def TakesDigit (text : List Char) : Prop :=
  ∀ c ∈ text.getLast?, isNumberChar c = true ∨ Glyph.isOperator c = true ∨ c = '('

/-- A new operand can begin there as it is. -/
def TakesOperand (text : List Char) : Prop :=
  ∀ c ∈ text.getLast?, Glyph.isOperator c = true ∨ c = '('

theorem TakesOperand.takesDigit {text : List Char} (h : TakesOperand text) : TakesDigit text :=
  fun c hc => .inr (h c hc)

theorem takesDigit_concat {front : List Char} {c : Char} :
    TakesDigit (front ++ [c]) ↔ isNumberChar c = true ∨ Glyph.isOperator c = true ∨ c = '(' := by
  simp [TakesDigit]

theorem takesOperand_concat {front : List Char} {c : Char} :
    TakesOperand (front ++ [c]) ↔ Glyph.isOperator c = true ∨ c = '(' := by
  simp [TakesOperand]

variable {layout : Layout} {text front : List Char} {opened : Bool} {c d : Char}

/-! ## What is before the cursor -/

theorem atEnd_entry : (entry layout text opened).AtEnd :=
  rfl

theorem chars_entry (hne : text ≠ []) : (entry layout text opened).buffer.chars = text :=
  Buffer.chars_ofChars hne

theorem insert_entry (hne : text ≠ []) (more : List Char) :
    (entry layout text opened).insert more = entry layout (text ++ more) opened := by
  rw [insert_eq_fill atEnd_entry, chars_entry hne]
  rfl

theorem isZero_entry (hne : text ≠ []) :
    (entry layout text opened).buffer.isZero = (text == ['0']) := by
  rw [Buffer.isZero, chars_entry hne]

theorem entry_eq_around (hne : text ≠ []) :
    entry layout text opened =
      ({ initial with layout, bracketCloses := opened } : Editor).around text [] :=
  fill_eq_around hne { initial with layout, bracketCloses := opened }

theorem charBefore?_entry :
    (entry layout (front ++ [c]) opened).buffer.charBefore?
      (entry layout (front ++ [c]) opened).cursor = some c := by
  rw [entry_eq_around (List.concat_ne_nil c front)]
  exact (charBefore?_around (by simp)).trans List.getLast?_concat

theorem afterDigit_entry : (entry layout (front ++ [c]) opened).afterDigit = isNumberChar c := by
  rw [afterDigit, charBefore?_entry, Option.any_some]

theorem afterClosedOperand_entry (h : TakesDigit (front ++ [c])) :
    (entry layout (front ++ [c]) opened).afterClosedOperand = false := by
  have hc := takesDigit_concat.mp h
  have hclosed : c ≠ ')' ∧ c ≠ '%' ∧ c ≠ '|' := by
    refine ⟨?_, ?_, ?_⟩ <;> (rintro rfl; revert hc; decide)
  exact afterClosedOperand_eq_false charBefore?_entry hclosed

theorem segmentHasPoint_entry (hne : text ≠ []) (h : pointsBefore text = 0) :
    (entry layout text opened).buffer.segmentHasPoint (entry layout text opened).cursor =
      false := by
  rw [entry_eq_around hne]
  refine (segmentHasPoint_around (by simpa using hne)).trans ?_
  rw [h]
  rfl

/-- Where no operator is, an operator takes the place of none. -/
theorem operatorsStart_entry (hne : text ≠ []) (h : operatorsBefore text = 0) :
    (entry layout text opened).buffer.operatorsStart (entry layout text opened).cursor =
      text.length := by
  rw [Buffer.operatorsStart, Buffer.runStart, Buffer.runBefore, atEnd_entry.take, atEnd_entry,
    Nat.min_self, Buffer.length, chars_entry hne]
  show text.length - operatorsBefore text = _
  rw [h, Nat.sub_zero]

/-! ## Keys -/

theorem perform_digit (hc : c.isDigit = true) (hzero : text ≠ ['0'])
    (htakes : TakesDigit text) :
    (entry layout text opened).perform (.digit c) = entry layout (text ++ [c]) opened := by
  rw [perform_of_isDigit _ hc, insertDigit]
  rcases List.eq_nil_or_concat' text with rfl | ⟨front, d, rfl⟩
  · rfl
  · rw [isZero_entry (List.concat_ne_nil d front), beq_eq_false_iff_ne.mpr hzero,
      afterClosedOperand_entry htakes]
    exact insert_entry (List.concat_ne_nil d front) [c]

theorem perform_point (hd : d.isDigit = true) (hpoints : pointsBefore (front ++ [d]) = 0) :
    (entry layout (front ++ [d]) opened).perform .point =
      entry layout (front ++ [d] ++ ['.']) opened := by
  have hne := List.concat_ne_nil d front
  have hnumber : isNumberChar d = true := by
    rw [isNumberChar, hd]
    rfl
  have htakes : TakesDigit (front ++ [d]) := takesDigit_concat.mpr (.inl hnumber)
  show insertPoint _ = _
  rw [insertPoint, segmentHasPoint_entry hne hpoints, isZero_entry hne,
    afterClosedOperand_entry htakes, afterDigit_entry, hnumber, insert_entry hne]
  by_cases hzero : front ++ [d] = ['0']
  · rw [hzero]
    rfl
  · rw [beq_eq_false_iff_ne.mpr hzero]
    exact insert_entry hne ['.']

theorem perform_percent (hd : d.isDigit = true ∨ d = ')') :
    (entry layout (front ++ [d]) opened).perform .percent =
      entry layout (front ++ [d] ++ ['%']) opened := by
  show insertPercent _ = _
  rw [insertPercent, charBefore?_entry, Option.any_some, if_pos (by simpa using hd)]
  exact insert_entry (List.concat_ne_nil d front) ['%']

theorem perform_operator (hc : Glyph.isOperator (Glyph.canonical c) = true)
    (hd : Glyph.isOperator d = false) :
    (entry layout (front ++ [d]) opened).perform (.operator c) =
      entry layout (front ++ [d] ++ [Glyph.canonical c]) opened := by
  have hne := List.concat_ne_nil d front
  have hbefore : operatorsBefore (front ++ [d]) = 0 := (before_operand front hd).2
  show insertOperator _ c = _
  rw [insertOperator_eq_fill atEnd_entry hc, chars_entry hne, operatorsStart_entry hne hbefore,
    List.take_length]
  rfl

theorem perform_open (htakes : TakesOperand text) :
    (entry layout text false).perform .bracket = entry layout (text ++ ['(']) true := by
  show insertBracket _ = _
  rcases List.eq_nil_or_concat' text with rfl | ⟨front, d, rfl⟩
  · rfl
  · have hd := takesOperand_concat.mp htakes
    have hne := List.concat_ne_nil d front
    have hnumber : isNumberChar d = false := by
      simp only [Glyph.isOperator, Bool.or_eq_true, beq_iff_eq] at hd
      rcases hd with ((((rfl | rfl) | rfl) | rfl) | rfl) | rfl <;> decide
    have hzero : front ++ [d] ≠ ['0'] := by
      intro hzero
      obtain rfl : d = '0' := by
        have hlast := congrArg List.getLast? hzero
        rw [List.getLast?_concat] at hlast
        exact Option.some.inj hlast
      cases hnumber
    have hcloses : ¬ (entry layout (front ++ [d]) false).bracketCloses = true :=
      Bool.false_ne_true
    rw [insertBracket, if_neg hcloses, isZero_entry hne, beq_eq_false_iff_ne.mpr hzero,
      afterDigit_entry, hnumber, afterClosedOperand_entry htakes.takesDigit]
    simp only [Bool.or_false, Bool.false_eq_true, if_false, insert_entry hne]
    rfl

theorem perform_close (hne : text ≠ []) :
    (entry layout text true).perform .bracket = entry layout (text ++ [')']) false := by
  show insertBracket _ = _
  have hcloses : (entry layout text true).bracketCloses = true := rfl
  rw [insertBracket, if_pos hcloses, insert_entry hne]
  rfl

/-! ## The check of the editor -/

theorem apply_of_formed {s : Editor} {event : Event} (h : s.buffer.isWellFormed = true)
    (hoverlay : s.overlay = none) (haccepts : s.layout.accepts s.mode event = true)
    (hchecks : event.checksItself = true) :
    s.apply event = s.perform event ∧ (s.perform event).buffer.isWellFormed = true := by
  have hformed := isWellFormed_edit h haccepts hchecks
  rw [edit_eq, uncovered_eq hoverlay] at hformed
  refine ⟨?_, hformed⟩
  rw [apply_of_checks haccepts hchecks, uncovered_eq hoverlay]

end PocketCalculator.Editor
