import PocketCalculator.Proofs.Editor.Shape

/-!
# Editing at the end of the entry

While the cursor stays behind the last character, what is inserted is put behind the entry
(`insert_eq_fill`), and an operator takes the place of those that the entry ends with
(`insertOperator_eq_fill`). Only deleting and moving leave the end (`atEnd_perform`).
-/

namespace PocketCalculator

/-- The event takes characters out of the entry. -/
def Event.deletes : Event → Bool
  | .backspace | .delete .. => true
  | _ => false

/-- The event moves the cursor. -/
def Event.moves : Event → Bool
  | .move _ => true
  | _ => false

namespace Editor

def AtEnd (s : Editor) : Prop :=
  s.cursor = s.buffer.length

variable {s : Editor}

theorem AtEnd.take (h : s.AtEnd) : s.buffer.chars.take s.cursor = s.buffer.chars := by
  rw [h]
  exact List.take_length

theorem AtEnd.drop (h : s.AtEnd) : s.buffer.chars.drop s.cursor = [] := by
  rw [h]
  exact List.drop_length

theorem atEnd_fill (s : Editor) (text : List Char) : (s.fill text).AtEnd :=
  rfl

theorem atEnd_reset (s : Editor) : s.reset.AtEnd :=
  rfl

/-! ## Insertions -/

/-- A part from a position to the end is replaced. -/
theorem splice_toEnd (b : Buffer) {start : Nat} (hstart : start ≤ b.length) (text : List Char) :
    b.splice start b.length text =
      (.ofChars (b.chars.take start ++ text),
        (Buffer.ofChars (b.chars.take start ++ text)).length) := by
  have hdrop : b.chars.drop b.length = [] := List.drop_length
  simp only [Buffer.splice, Nat.min_self, Nat.min_eq_left hstart, hdrop, List.append_nil]
  refine Prod.ext rfl ?_
  dsimp only
  split
  · next hnil =>
    rw [hnil]
    rfl
  · next hne =>
    have hlength : (b.chars.take start).length = start := by
      rw [List.length_take]
      exact Nat.min_eq_left hstart
    rw [Buffer.length, Buffer.chars_ofChars hne, List.length_append, hlength]

theorem insert_eq_fill (h : s.AtEnd) (text : List Char) :
    s.insert text = s.fill (s.buffer.chars ++ text) := by
  have hsplice := splice_toEnd s.buffer (Nat.le_refl _) text
  have hall : s.buffer.chars.take s.buffer.length = s.buffer.chars := List.take_length
  rw [hall] at hsplice
  rw [insert, Buffer.insert, h, hsplice]
  rfl

theorem insertOperator_eq_fill (h : s.AtEnd) {c : Char}
    (hc : Glyph.isOperator (Glyph.canonical c) = true) :
    s.insertOperator c =
      s.fill (s.buffer.chars.take (s.buffer.operatorsStart s.cursor) ++ [Glyph.canonical c]) := by
  have hstart : s.buffer.operatorsStart s.cursor ≤ s.buffer.length :=
    Nat.le_trans (Nat.sub_le ..) (Nat.min_le_right ..)
  have hstop : s.buffer.operatorsStop s.cursor = s.buffer.length := by
    rw [Buffer.operatorsStop, Buffer.runStop, Buffer.runAfter, h.drop, h, Nat.min_self]
    rfl
  rw [insertOperator, if_pos hc, hstop, splice_toEnd _ hstart]
  rfl

theorem atEnd_insert (h : s.AtEnd) (text : List Char) : (s.insert text).AtEnd := by
  rw [insert_eq_fill h]
  exact atEnd_fill ..

/-! ## All edits -/

theorem atEnd_insertDigit (h : s.AtEnd) (c : Char) : (s.insertDigit c).AtEnd := by
  unfold insertDigit
  split
  · exact atEnd_fill ..
  · split <;> exact atEnd_insert h _

theorem atEnd_insertConstant (h : s.AtEnd) (constant : Constant) :
    (s.insertConstant constant).AtEnd := by
  unfold insertConstant
  dsimp only
  split
  · exact atEnd_fill ..
  · split
    · exact h
    · split
      · exact atEnd_insert h _
      · split
        · exact h
        · exact atEnd_insert h _

theorem atEnd_insertOperator (h : s.AtEnd) (c : Char) : (s.insertOperator c).AtEnd := by
  by_cases hc : Glyph.isOperator (Glyph.canonical c) = true
  · rw [insertOperator_eq_fill h hc]
    exact atEnd_fill ..
  · rw [insertOperator, if_neg hc]
    exact h

theorem atEnd_insertPoint (h : s.AtEnd) : s.insertPoint.AtEnd := by
  unfold insertPoint
  split
  · exact h
  · split
    · exact atEnd_fill ..
    · split
      · exact atEnd_insert h _
      · split <;> exact atEnd_insert h _

theorem atEnd_insertPercent (h : s.AtEnd) : s.insertPercent.AtEnd := by
  unfold insertPercent
  split
  · exact atEnd_insert h _
  · exact h

theorem atEnd_insertBracket (h : s.AtEnd) : s.insertBracket.AtEnd := by
  unfold insertBracket
  split
  · exact atEnd_insert h _
  · dsimp only
    split
    · exact atEnd_fill s _
    · split <;> exact atEnd_insert h _

/-- The number that the entry ends with is not empty. -/
theorem trailingNumber?_lt {b : Buffer} {start : Nat} (h : b.trailingNumber? = some start) :
    start < b.length := by
  unfold Buffer.trailingNumber? at h
  dsimp only at h
  split at h
  · next hdigit =>
    obtain rfl := Option.some.inj h
    obtain ⟨c, hc, -⟩ := List.any_eq_true.mp hdigit
    exact Nat.sub_lt b.length_pos (List.length_pos_of_mem hc)
  · cases h

/-- The length after a change in front of the last character. -/
theorem length_splice (b : Buffer) {start stop : Nat} (hle : start ≤ stop) (hstop : stop < b.length)
    (text : List Char) :
    (b.splice start stop text).1.length = start + text.length + (b.length - stop) := by
  have hrest : b.chars.drop stop ≠ [] := by
    rw [ne_eq, List.drop_eq_nil_iff, Nat.not_le]
    exact hstop
  have hne : b.chars.take start ++ text ++ b.chars.drop stop ≠ [] :=
    List.append_ne_nil_of_right_ne_nil _ hrest
  rw [Buffer.length, chars_splice hle (Nat.le_of_lt hstop) hne, List.length_append,
    List.length_append, List.length_take, List.length_drop]
  change min start b.length + text.length + (b.length - stop) = _
  rw [Nat.min_eq_left (Nat.le_trans hle (Nat.le_of_lt hstop))]

theorem atEnd_toggleSign (h : s.AtEnd) : s.toggleSign.AtEnd := by
  unfold toggleSign
  split
  · exact h
  · split
    · exact h
    · next start hnumber =>
      have hstart := trailingNumber?_lt hnumber
      unfold AtEnd at h
      split
      · next hsign =>
        have hpos : start ≠ 0 := by
          rintro rfl
          simp [Buffer.charBefore?] at hsign
        have hlength := length_splice s.buffer (Nat.sub_le start 1) hstart []
        rw [List.length_nil] at hlength
        dsimp only [AtEnd]
        rw [hlength, if_pos (by omega)]
        omega
      · have hlength := length_splice s.buffer (Nat.le_refl start) hstart ['-']
        rw [List.length_singleton] at hlength
        dsimp only [AtEnd, Buffer.insert]
        rw [hlength, if_pos (by omega)]
        omega

theorem atEnd_applyFunction (h : s.AtEnd) (key : FunctionKey) : (s.applyFunction key).AtEnd := by
  unfold applyFunction
  split
  · exact h
  · exact atEnd_fill ..

/-- Only deleting and moving leave the end. -/
theorem atEnd_perform (h : s.AtEnd) {event : Event} (hkept : event.deletes = false)
    (hstays : event.moves = false) : (s.perform event).AtEnd := by
  cases event with
  | digit c =>
    dsimp only [perform]
    split
    · exact atEnd_insertConstant h _
    · exact atEnd_insertDigit h c
  | operator c => exact atEnd_insertOperator h c
  | point => exact atEnd_insertPoint h
  | percent => exact atEnd_insertPercent h
  | clear => exact atEnd_reset s
  | signToggle => exact atEnd_toggleSign h
  | bracket => exact atEnd_insertBracket h
  | function key => exact atEnd_applyFunction h key
  | modeToggle => exact atEnd_reset _
  | backspace | delete => cases hkept
  | move => cases hstays

end Editor

end PocketCalculator
