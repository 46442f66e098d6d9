import PocketCalculator.Proofs.Editor.Shape

/-!
# Events at an overlay

What an evaluation lays over the entry is left by the next event that the layout shows, and the
entry under it counts for nothing any more: an event edits what it finds (`uncovered`), which is
then an empty entry (`apply_overlaid`). If it checks itself, that edit is what it leads to
(`apply_of_checks`). No edit lays anything over the entry (`overlay_perform`), and none but the mode
key changes what the entry is keyed in with (`setting_perform`).
-/

namespace PocketCalculator.Editor

variable {s : Editor}

/-! ## What edits leave alone -/

/-- What the entry is keyed in with, and what is laid over it. -/
def setting (s : Editor) : Mode × Layout × Option Overlay :=
  (s.mode, s.layout, s.overlay)

theorem setting_insertDigit (s : Editor) (c : Char) : (s.insertDigit c).setting = s.setting := by
  unfold insertDigit
  split
  · rfl
  · split <;> rfl

theorem setting_insertConstant (s : Editor) (constant : Constant) :
    (s.insertConstant constant).setting = s.setting := by
  unfold insertConstant
  dsimp only
  split
  · rfl
  · split
    · rfl
    · split
      · rfl
      · split <;> rfl

theorem setting_insertOperator (s : Editor) (c : Char) :
    (s.insertOperator c).setting = s.setting := by
  unfold insertOperator
  dsimp only
  split <;> rfl

theorem setting_insertPoint (s : Editor) : s.insertPoint.setting = s.setting := by
  unfold insertPoint
  split
  · rfl
  · split
    · rfl
    · split
      · rfl
      · split <;> rfl

theorem setting_insertPercent (s : Editor) : s.insertPercent.setting = s.setting := by
  unfold insertPercent
  split <;> rfl

theorem setting_insertBracket (s : Editor) : s.insertBracket.setting = s.setting := by
  unfold insertBracket
  split
  · rfl
  · dsimp only
    split
    · rfl
    · split <;> rfl

theorem setting_delete (s : Editor) (start stop : Nat) :
    (s.delete start stop).setting = s.setting := by
  unfold delete
  split
  · dsimp only
    split <;> rfl
  · rfl

theorem setting_backspace (s : Editor) : s.backspace.setting = s.setting := by
  unfold backspace
  split
  · exact setting_delete s ..
  · rfl

theorem setting_toggleSign (s : Editor) : s.toggleSign.setting = s.setting := by
  unfold toggleSign
  split
  · rfl
  · split
    · rfl
    · split <;> rfl

theorem setting_applyFunction (s : Editor) (key : FunctionKey) :
    (s.applyFunction key).setting = s.setting := by
  unfold applyFunction
  split <;> rfl

/-- Only the mode key changes the mode, only the two keys that empty the entry uncover it, and the
layout stays. -/
theorem setting_perform (s : Editor) (event : Event) :
    (s.perform event).setting =
      match event with
      | .clear => (s.mode, s.layout, none)
      | .modeToggle => (s.mode.toggled, s.layout, none)
      | _ => s.setting := by
  cases event with
  | digit c =>
    dsimp only [perform]
    split
    · exact setting_insertConstant s _
    · exact setting_insertDigit s c
  | operator c => exact setting_insertOperator s c
  | point => exact setting_insertPoint s
  | percent => exact setting_insertPercent s
  | clear => rfl
  | backspace => exact setting_backspace s
  | delete start stop => exact setting_delete s start stop
  | signToggle => exact setting_toggleSign s
  | bracket => exact setting_insertBracket s
  | function key => exact setting_applyFunction s key
  | modeToggle => rfl
  | move direction => rfl

/-- Where nothing is laid over the entry, no edit lays anything over it. -/
theorem overlay_perform (h : s.overlay = none) (event : Event) :
    (s.perform event).overlay = none := by
  have hsetting := congrArg (·.2.2) (setting_perform s event)
  dsimp only [setting] at hsetting
  rw [hsetting]
  split
  · rfl
  · rfl
  · exact h

/-! ## What an event finds -/

/-- What an event edits: an empty entry where something is laid over the one that was keyed in. -/
def uncovered (s : Editor) : Editor :=
  if s.overlay.isSome then s.reset else s

theorem uncovered_eq (h : s.overlay = none) : s.uncovered = s := by
  rw [uncovered, h]
  rfl

theorem uncovered_overlaid (h : s.overlay.isSome = true) : s.uncovered = s.reset :=
  if_pos h

theorem overlay_uncovered (s : Editor) : s.uncovered.overlay = none := by
  unfold uncovered
  split
  · rfl
  · next hnone => exact Option.not_isSome_iff_eq_none.mp hnone

theorem CursorInside.uncovered (h : s.CursorInside) : s.uncovered.CursorInside := by
  unfold Editor.uncovered
  split
  · exact cursorInside_reset
  · exact h

theorem edit_eq (s : Editor) (event : Event) : s.edit event = s.uncovered.perform event := by
  unfold edit uncovered
  split <;> rfl

theorem isZero_uncovered (s : Editor) :
    s.uncovered.buffer.isZero = (s.overlay.isSome || s.buffer.isZero) := by
  unfold uncovered
  cases s.overlay <;> rfl

/-- The last check of the editor lets through what is well formed. -/
theorem apply_of_isWellFormed {event : Event} (haccepts : s.layout.accepts s.mode event = true)
    (hformed : (s.uncovered.perform event).buffer.isWellFormed = true) :
    s.apply event = s.uncovered.perform event := by
  rw [apply, if_pos haccepts, edit_eq]
  dsimp only
  rw [hformed, Bool.not_true, Bool.and_false, if_neg Bool.false_ne_true]

/-- An entry that is not well formed is not checked. -/
theorem apply_of_not_isWellFormed {event : Event} (haccepts : s.layout.accepts s.mode event = true)
    (hformed : s.buffer.isWellFormed = false) : s.apply event = s.uncovered.perform event := by
  rw [apply, if_pos haccepts, edit_eq]
  dsimp only
  rw [hformed, Bool.false_and, if_neg Bool.false_ne_true]

/-- An event that checks itself is let through, whatever the shape of the entry. -/
theorem apply_of_checks {event : Event} (haccepts : s.layout.accepts s.mode event = true)
    (hchecks : event.checksItself = true) : s.apply event = s.uncovered.perform event := by
  cases hformed : s.buffer.isWellFormed with
  | false => exact apply_of_not_isWellFormed haccepts hformed
  | true =>
    refine apply_of_isWellFormed haccepts ?_
    rw [← edit_eq]
    exact isWellFormed_edit hformed haccepts hchecks

/-! ## Leaving an overlay -/

/-- In an empty entry even the edits that rely on being refused keep the shape: a constant takes the
place of the zero, and the sign key does nothing. -/
theorem isWellFormed_perform_reset (s : Editor) {event : Event}
    (haccepts : s.layout.accepts s.mode event = true) :
    (s.reset.perform event).buffer.isWellFormed = true := by
  cases hchecks : event.checksItself with
  | true => exact isWellFormed_perform (s := s.reset) rfl haccepts hchecks
  | false =>
    cases event with
    | digit c =>
      cases hconstant : Constant.ofSymbol? c with
      | none =>
        dsimp only [Event.checksItself] at hchecks
        rw [hconstant] at hchecks
        cases hchecks
      | some constant =>
        dsimp only [perform]
        rw [hconstant]
        cases constant <;> rfl
    | signToggle => rfl
    | _ => cases hchecks

/-- An event at an overlay is one at an empty entry. The hidden entry has no say in it, even if it
is not well formed or the event names a range of it. -/
theorem apply_overlaid (h : s.overlay.isSome = true) {event : Event}
    (haccepts : s.layout.accepts s.mode event = true) : s.apply event = s.reset.perform event := by
  have hformed := isWellFormed_perform_reset s haccepts
  rw [← uncovered_overlaid h] at hformed ⊢
  exact apply_of_isWellFormed haccepts hformed

theorem apply_reset {event : Event} (haccepts : s.layout.accepts s.mode event = true) :
    s.reset.apply event = s.reset.perform event :=
  apply_of_isWellFormed (s := s.reset) haccepts (isWellFormed_perform_reset s haccepts)

theorem apply_refused {event : Event} (hrefuses : s.layout.accepts s.mode event = false) :
    s.apply event = s := by
  unfold apply
  rw [hrefuses, if_neg Bool.false_ne_true]

/-- An overlay is what the editor evaluates to, and to commit that changes nothing. -/
theorem commit_evaluate_overlaid {overlay : Overlay} (h : s.overlay = some overlay) :
    s.evaluate = overlay.evaluation ∧ s.commit s.evaluate = s := by
  have hevaluate : s.evaluate = overlay.evaluation := by
    unfold evaluate
    rw [h]
  refine ⟨hevaluate, ?_⟩
  rw [hevaluate]
  obtain ⟨buffer, cursor, mode, layout, bracketCloses, shown⟩ := s
  obtain rfl : shown = some overlay := h
  cases overlay <;> rfl

end PocketCalculator.Editor
