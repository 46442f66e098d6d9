import PocketCalculator.Proofs.Editor.Shape

/-!
# The entry around the cursor

An editor whose cursor stands in its entry has a text before the cursor and one after it (`around`).
What a key looks at near the cursor is the end of the one and the beginning of the other, and what
it puts in goes behind the first (`insert_around`). So what keys do at any place of an entry can be
said without positions.
-/

namespace PocketCalculator

namespace Buffer

variable {b : Buffer} {left old right : List Char}

/-- A part of the text gives way to another, and the position is the one behind that. -/
theorem splice_middle (h : b.chars = left ++ old ++ right) (text : List Char) :
    b.splice left.length (left.length + old.length) text =
      (ofChars (left ++ text ++ right),
        if left ++ text ++ right = [] then zero.length else left.length + text.length) := by
  have hlength : b.length = left.length + old.length + right.length := by
    rw [length, h, List.length_append, List.length_append]
  have hstop : min (left.length + old.length) b.length = (left ++ old).length := by
    rw [List.length_append]
    omega
  have hstart : min left.length (left ++ old).length = left.length := by
    rw [List.length_append]
    exact Nat.min_eq_left (Nat.le_add_right ..)
  have htake : b.chars.take left.length = left := by
    rw [h, List.append_assoc, List.take_left]
  have hdrop : b.chars.drop (left ++ old).length = right := by
    rw [h, List.drop_left]
  rw [splice, hstop, hstart, htake, hdrop]

theorem splice_parts (h : b.chars = left ++ old ++ right) (text : List Char) :
    (b.splice left.length (left.length + old.length) text).1 = ofChars (left ++ text ++ right) :=
  congrArg Prod.fst (splice_middle h text)

end Buffer

namespace Editor

open Buffer (pointsBefore pointsAfter)

/-- The editor with these texts before and after its cursor. -/
def around (s : Editor) (left right : List Char) : Editor :=
  { s with buffer := .ofChars (left ++ right), cursor := left.length }

variable {s : Editor} {left right : List Char}

theorem around_eq (hchars : s.buffer.chars = left ++ right) (hcursor : s.cursor = left.length) :
    s.around left right = s := by
  rw [around, ← hchars, Buffer.ofChars_chars, ← hcursor]

theorem around_take_drop (h : s.CursorInside) :
    s.around (s.buffer.chars.take s.cursor) (s.buffer.chars.drop s.cursor) = s := by
  refine around_eq (List.take_append_drop ..).symm ?_
  rw [List.length_take]
  exact (Nat.min_eq_left h).symm

theorem exists_around (h : s.CursorInside) :
    ∃ (t : Editor) (left right : List Char), left ++ right ≠ [] ∧ s = t.around left right := by
  refine ⟨s, _, _, ?_, (around_take_drop h).symm⟩
  rw [List.take_append_drop]
  exact s.buffer.ne_nil

section Around

variable (hne : left ++ right ≠ [])

include hne

theorem chars_around : (s.around left right).buffer.chars = left ++ right :=
  Buffer.chars_ofChars hne

theorem isZero_around : (s.around left right).buffer.isZero = (left ++ right == ['0']) := by
  rw [Buffer.isZero, chars_around hne]

/-! ## Near the cursor -/

theorem charBefore?_around :
    (s.around left right).buffer.charBefore? left.length = left.getLast? :=
  (seam_of_take_drop (chars_around hne)).1

theorem charAt?_around : (s.around left right).buffer.charAt? left.length = right.head? :=
  (seam_of_take_drop (chars_around hne)).2.1

theorem segmentPoints_around :
    (s.around left right).buffer.segmentPoints left.length =
      pointsBefore left + pointsAfter right :=
  (seam_of_take_drop (chars_around hne)).2.2

theorem segmentHasPoint_around :
    (s.around left right).buffer.segmentHasPoint left.length =
      decide (0 < pointsBefore left + pointsAfter right) := by
  rw [Buffer.segmentHasPoint, segmentPoints_around hne]

theorem afterDigit_around : (s.around left right).afterDigit = left.getLast?.any isNumberChar :=
  congrArg (Option.any isNumberChar) (charBefore?_around hne)

theorem beforeDigit_around : (s.around left right).beforeDigit = right.head?.any isNumberChar :=
  congrArg (Option.any isNumberChar) (charAt?_around hne)

/-! ## Insertions -/

theorem insert_around (text : List Char) :
    (s.around left right).insert text = s.around (left ++ text) right := by
  have hchars : (s.around left right).buffer.chars = left ++ [] ++ right := by
    rw [List.append_nil, chars_around hne]
  have hnew : left ++ text ++ right ≠ [] := by
    intro hnil
    simp only [List.append_eq_nil_iff] at hnil
    exact hne (List.append_eq_nil_iff.mpr ⟨hnil.1.1, hnil.2⟩)
  have hsplice := Buffer.splice_middle hchars text
  rw [List.length_nil, Nat.add_zero, if_neg hnew, ← List.length_append] at hsplice
  have hcursor : (s.around left right).cursor = left.length := rfl
  rw [insert, Buffer.insert, hcursor, hsplice]
  rfl

end Around

/-- An entry that was keyed in, with nothing over it. -/
theorem exists_around_of_not_isZero (h : s.CursorInside) (hzero : s.buffer.isZero = false)
    (hoverlay : s.overlay = none) :
    ∃ (t : Editor) (left right : List Char), left ++ right ≠ [] ∧ left ++ right ≠ ['0'] ∧
      t.overlay = none ∧ s = t.around left right := by
  obtain ⟨t, left, right, hne, rfl⟩ := exists_around h
  rw [isZero_around hne, beq_eq_false_iff_ne] at hzero
  exact ⟨t, left, right, hne, hzero, hoverlay, rfl⟩

theorem fill_eq_around {text : List Char} (hne : text ≠ []) (s : Editor) :
    s.fill text = s.around text [] := by
  have hlength : (Buffer.ofChars text).length = text.length :=
    congrArg List.length (Buffer.chars_ofChars hne)
  rw [fill, around, List.append_nil, hlength]

/-- An operand ends where nothing that closes one is before the cursor. -/
theorem afterClosedOperand_eq_false {c : Char} (h : s.buffer.charBefore? s.cursor = some c)
    (hc : c ≠ ')' ∧ c ≠ '%' ∧ c ≠ '|') : s.afterClosedOperand = false := by
  rw [afterClosedOperand, h]
  split
  · next he => exact absurd (Option.some.inj he) hc.1
  · next he => exact absurd (Option.some.inj he) hc.2.1
  · next he => exact absurd (Option.some.inj he) hc.2.2
  · rfl

end Editor

end PocketCalculator
