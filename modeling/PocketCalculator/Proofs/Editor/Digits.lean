import PocketCalculator.Proofs.Editor.Around
import PocketCalculator.Proofs.Editor.Overlay

/-!
# Digits typed and erased

A digit goes in at the cursor, as a factor where the operand before the cursor is closed
(`apply_digit_around`). The erasing key takes out the character before the cursor, unless that would
bring two operators together or two points into one operand (`apply_backspace_around`). Neither of
these is near a digit that follows another one, so digits are erased as they were typed, and what is
left to look at is the first one (`digits_erased_iff`).
-/

namespace PocketCalculator.Editor

open Buffer (Formed pointsBefore pointsAfter)

/-- Operators stand on both sides of the cursor. -/
def betweenOperators (s : Editor) : Bool :=
  (s.buffer.charBefore? s.cursor).any Glyph.isOperator &&
    (s.buffer.charAt? s.cursor).any Glyph.isOperator

variable {s : Editor} {left right : List Char} {c : Char}

/-! ## One key -/

theorem ofSymbol?_of_isDigit (hc : c.isDigit = true) : Constant.ofSymbol? c = none := by
  refine Option.eq_none_iff_forall_ne_some.mpr fun constant hconstant => ?_
  rw [Constant.ofSymbol?_eq_some_iff.mp hconstant] at hc
  revert hc
  cases constant <;> decide

theorem accepts_digit (layout : Layout) (mode : Mode) (hc : c.isDigit = true) :
    layout.accepts mode (.digit c) = true := by
  unfold Layout.accepts
  simpa only [ofSymbol?_of_isDigit hc] using hc

theorem checksItself_digit (hc : c.isDigit = true) : Event.checksItself (.digit c) = true :=
  Option.isNone_iff_eq_none.mpr (ofSymbol?_of_isDigit hc)

theorem perform_of_isDigit (s : Editor) (hc : c.isDigit = true) :
    s.perform (.digit c) = s.insertDigit c := by
  unfold perform
  simp only [ofSymbol?_of_isDigit hc]

/-- A digit is put in, whatever the shape of the entry. -/
theorem apply_digit (hoverlay : s.overlay = none) (hc : c.isDigit = true) :
    s.apply (.digit c) = s.insertDigit c := by
  rw [apply_of_checks (accepts_digit s.layout s.mode hc) (checksItself_digit hc),
    uncovered_eq hoverlay, perform_of_isDigit s hc]

theorem apply_digit_around (hoverlay : s.overlay = none) (hne : left ++ right ≠ [])
    (hzero : left ++ right ≠ ['0']) (hc : c.isDigit = true) :
    (s.around left right).apply (.digit c) =
      if (s.around left right).afterClosedOperand then s.around (left ++ ['*'] ++ [c]) right
      else s.around (left ++ [c]) right := by
  rw [apply_digit (s := s.around left right) hoverlay hc, insertDigit, isZero_around hne,
    beq_eq_false_iff_ne.mpr hzero, if_neg Bool.false_ne_true, insert_around hne, insert_around hne,
    List.append_assoc]
  rfl

theorem apply_backspace_around (hoverlay : s.overlay = none) (hne : left ++ right ≠ []) (c : Char) :
    (s.around (left ++ [c]) right).apply .backspace =
      if (s.around left right).betweenOperators || 1 < pointsBefore left + pointsAfter right then
        s.around (left ++ [c]) right
      else s.around left right := by
  have hchars : (s.around (left ++ [c]) right).buffer.chars = left ++ [c] ++ right :=
    chars_around (by simp)
  have hcursor : (s.around (left ++ [c]) right).cursor = left.length + 1 := by
    rw [around, List.length_append, List.length_singleton]
  have hrange : left.length <
      min (left.length + 1) (s.around (left ++ [c]) right).buffer.length := by
    rw [Buffer.length, hchars, List.length_append, List.length_append, List.length_singleton]
    omega
  have hsplice := Buffer.splice_middle hchars []
  rw [List.append_nil, if_neg hne, List.length_singleton, List.length_nil, Nat.add_zero] at hsplice
  rw [apply_of_checks rfl rfl, uncovered_eq (s := s.around (left ++ [c]) right) hoverlay]
  show (s.around (left ++ [c]) right).backspace = _
  rw [backspace, hcursor, if_pos (Nat.succ_pos _), Nat.add_sub_cancel, delete, if_pos hrange,
    hsplice, ← segmentPoints_around hne (s := s)]
  rfl

/-! ## Behind a digit -/

theorem afterClosedOperand_digit (hc : c.isDigit = true) :
    (s.around (left ++ [c]) right).afterClosedOperand = false := by
  refine afterClosedOperand_eq_false (c := c) ?_ ?_
  · exact (charBefore?_around (by simp)).trans List.getLast?_concat
  · refine ⟨?_, ?_, ?_⟩ <;> (rintro rfl; cases hc)

theorem betweenOperators_around (hne : left ++ right ≠ []) :
    (s.around left right).betweenOperators =
      (left.getLast?.any Glyph.isOperator && right.head?.any Glyph.isOperator) :=
  congrArg₂ (fun before at' => Option.any Glyph.isOperator before && Option.any Glyph.isOperator at')
    (charBefore?_around hne) (charAt?_around hne)

theorem betweenOperators_digit (hc : c.isDigit = true) :
    (s.around (left ++ [c]) right).betweenOperators = false := by
  rw [betweenOperators_around (by simp), List.getLast?_concat, Option.any_some,
    isOperator_of_isDigit hc, Bool.false_and]

/-! ## Back again -/

/-- A digit can be typed and erased at the cursor of a well-formed entry. -/
structure Typable (s : Editor) : Prop where
  formed : s.buffer.isWellFormed = true
  notZero : s.buffer.isZero = false
  uncovered : s.overlay = none
  inside : s.CursorInside

/-- One digit is erased if it went in by itself, and not between operators. -/
theorem digit_erased_iff (h : s.Typable) (hc : c.isDigit = true) :
    (s.apply (.digit c)).apply .backspace = s ↔
      s.afterClosedOperand = false ∧ s.betweenOperators = false := by
  have hformed := h.formed
  obtain ⟨t, left, right, hne, hzero, hoverlay, rfl⟩ :=
    exists_around_of_not_isZero h.inside h.notZero h.uncovered
  have hpoints : pointsBefore left + pointsAfter right ≤ 1 := by
    have hboth : Formed (left ++ right) := chars_around (s := t) hne ▸ hformed
    exact (Buffer.meet_parts hboth).2.2
  have hmoved : ∀ more, more ≠ [] → t.around (left ++ more) right ≠ t.around left right := by
    intro more hmore heq
    have hlength := congrArg cursor heq
    simp [around, hmore] at hlength
  rw [apply_digit_around hoverlay hne hzero hc]
  cases hclosed : (t.around left right).afterClosedOperand with
  | true =>
    -- The sign before the digit is left, whether or not the digit can be erased.
    rw [if_pos rfl, apply_backspace_around hoverlay (by simp)]
    refine iff_of_false ?_ (by simp)
    split
    · rw [List.append_assoc]
      exact hmoved _ (by simp)
    · exact hmoved _ (by simp)
  | false =>
    rw [if_neg Bool.false_ne_true, apply_backspace_around hoverlay hne,
      decide_eq_false (Nat.not_lt.mpr hpoints), Bool.or_false]
    cases (t.around left right).betweenOperators with
    | true =>
      rw [if_pos rfl]
      exact iff_of_false (hmoved _ (by simp)) (by simp)
    | false => simp

theorem Typable.digit (h : s.Typable) (hc : c.isDigit = true) :
    (s.apply (.digit c)).Typable ∧ (s.apply (.digit c)).afterClosedOperand = false ∧
      (s.apply (.digit c)).betweenOperators = false := by
  have hformed := isWellFormed_apply h.formed (.digit c)
  have hinside := cursorInside_apply h.inside (.digit c)
  obtain ⟨t, left, right, hne, hzero, hoverlay, rfl⟩ :=
    exists_around_of_not_isZero h.inside h.notZero h.uncovered
  -- Something besides the digit is in the entry.
  obtain ⟨lead, hlead, hpress⟩ : ∃ lead, lead ++ right ≠ [] ∧
      (t.around left right).apply (.digit c) = t.around (lead ++ [c]) right := by
    rw [apply_digit_around hoverlay hne hzero hc]
    split
    · exact ⟨left ++ ['*'], by simp, rfl⟩
    · exact ⟨left, hne, rfl⟩
  rw [hpress] at hformed hinside ⊢
  refine ⟨⟨hformed, ?_, hoverlay, hinside⟩, afterClosedOperand_digit hc, betweenOperators_digit hc⟩
  rw [isZero_around (by simp), beq_eq_false_iff_ne]
  intro hone
  have hlength := congrArg List.length hone
  have hpos := List.length_pos_iff.mpr hlead
  simp only [List.length_append, List.length_singleton] at hlength hpos
  omega

theorem run_append (s : Editor) (first second : List Operation) :
    s.run (first ++ second) = (s.run first).run second :=
  List.foldl_append

/-- **The erasing key takes back what was typed.** Digits typed into a well-formed entry other than
zero are gone after as many presses of the key, and the editor is as it was before, exactly unless
the first of them was put in as a factor or between two operators. -/
theorem digits_erased_iff (hformed : s.buffer.isWellFormed = true) (hzero : s.buffer.isZero = false)
    (hoverlay : s.overlay = none) (hcursor : s.CursorInside) {digits : List Char}
    (hdigits : ∀ c ∈ digits, c.isDigit = true) :
    s.run (digits.map (fun c => .event (.digit c)) ++
        List.replicate digits.length (.event .backspace)) = s ↔
      digits = [] ∨ (s.afterClosedOperand = false ∧ s.betweenOperators = false) := by
  have htypable : s.Typable := ⟨hformed, hzero, hoverlay, hcursor⟩
  clear hformed hzero hoverlay hcursor
  induction digits generalizing s with
  | nil => exact iff_of_true rfl (.inl rfl)
  | cons c digits ih =>
    obtain ⟨hc, hrest⟩ := List.forall_mem_cons.mp hdigits
    obtain ⟨hnext, hplace⟩ := htypable.digit hc
    have hback := (ih hrest hnext).mpr (.inr hplace)
    have hrun : s.run ((c :: digits).map (fun c => .event (.digit c)) ++
        List.replicate (c :: digits).length (.event .backspace)) =
          (s.apply (.digit c)).apply .backspace := by
      rw [List.length_cons, List.replicate_succ', List.map_cons, List.cons_append,
        ← List.append_assoc, ← List.cons_append, run_append]
      show ((s.apply (.digit c)).run _).run [.event .backspace] = _
      rw [hback]
      rfl
    rw [hrun, digit_erased_iff htypable hc, or_iff_right (List.cons_ne_nil c digits)]

/-- Behind a bar that opens, before a digit. -/
theorem digits_behind_bar_erased :
    let s : Editor := { ofText "|3.5|*-2".toList with cursor := 1 }
    let digits := ['0', '7']
    let erased := s.run (digits.map (fun c => .event (.digit c)) ++
      List.replicate digits.length (.event .backspace))
    s.buffer.isWellFormed = true ∧ s.buffer.isZero = false ∧ s.overlay = none ∧ s.CursorInside ∧
      (∀ c ∈ digits, c.isDigit = true) ∧
      (s.run (digits.map fun c => .event (.digit c))).buffer.chars = "|073.5|*-2".toList ∧
      (erased = s ↔ digits = [] ∨ (s.afterClosedOperand = false ∧ s.betweenOperators = false)) ∧
      erased = s := by
  intro s digits erased
  have hformed : s.buffer.isWellFormed = true := by decide
  have hcursor : s.CursorInside := by
    unfold CursorInside
    decide
  have hdigits : ∀ c ∈ digits, c.isDigit = true := List.all_eq_true.mp rfl
  have herased := digits_erased_iff hformed rfl rfl hcursor hdigits
  exact ⟨hformed, rfl, rfl, hcursor, hdigits, by decide, herased,
    herased.mpr (.inr ⟨by decide, by decide⟩)⟩

end PocketCalculator.Editor
