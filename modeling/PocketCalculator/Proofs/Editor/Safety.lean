import PocketCalculator.Proofs.Buffer.Shape
import PocketCalculator.Proofs.Editor.Checked
import PocketCalculator.Proofs.Numeral
import PocketCalculator.Snapshot

/-!
# Safe editors

Wherever an editor comes from, and whatever is done to it, its entry is not empty, its cursor stands
in the entry, and no event computes a position outside it (`Safe`). If the entry was well formed to
begin with it stays well shaped. Each edit is followed once for the cursor (`cursorInside_perform`);
the shape is kept by the last check of `apply`, and by numbers because they are operands.
-/

namespace PocketCalculator.Editor

open Buffer (WellShaped)

/-! ## The cursor stays in the entry -/

def CursorInside (s : Editor) : Prop :=
  s.cursor ≤ s.buffer.length

section Cursor

variable {s : Editor}

theorem cursorInside_reset : s.reset.CursorInside :=
  Nat.le_refl _

theorem cursorInside_fill (text : List Char) : (s.fill text).CursorInside :=
  Nat.le_refl _

theorem cursorInside_insert (text : List Char) : (s.insert text).CursorInside :=
  Buffer.splice_snd_le ..

theorem length_le_ofChars (chars : List Char) : chars.length ≤ (Buffer.ofChars chars).length := by
  by_cases h : chars = []
  · rw [h]
    exact Nat.zero_le _
  · rw [Buffer.length, Buffer.chars_ofChars h]

/-- A splice changes the length by what it puts in and takes out, unless nothing would be left. -/
theorem le_length_splice (b : Buffer) {start stop : Nat} (text : List Char) (hstart : start ≤ stop)
    (hstop : stop ≤ b.length) :
    start + text.length + (b.length - stop) ≤ (b.splice start stop text).1.length := by
  refine Nat.le_trans (Nat.le_of_eq ?_) (length_le_ofChars _)
  rw [Nat.min_eq_left hstop, Nat.min_eq_left hstart, List.length_append, List.length_append,
    List.length_take, List.length_drop]
  change _ = min start b.length + text.length + (b.length - stop)
  rw [Nat.min_eq_left (Nat.le_trans hstart hstop)]

theorem cursorInside_delete (h : s.CursorInside) (start stop : Nat) :
    (s.delete start stop).CursorInside := by
  unfold delete
  split
  · dsimp only
    split
    · exact h
    · exact Buffer.splice_snd_le ..
  · exact h

theorem trailingNumber?_le {b : Buffer} {start : Nat} (h : b.trailingNumber? = some start) :
    start ≤ b.length := by
  unfold Buffer.trailingNumber? at h
  dsimp only at h
  split at h
  · obtain rfl := Option.some.inj h
    exact Nat.sub_le ..
  · cases h

theorem cursorInside_toggleSign (h : s.CursorInside) : s.toggleSign.CursorInside := by
  unfold toggleSign
  split
  · exact h
  · split
    · exact h
    · next start hnumber =>
      have hstart := trailingNumber?_le hnumber
      unfold CursorInside at h
      split
      · next hsign =>
        -- The sign is a character of its own in front of the number, so one is taken out for good.
        have hpos : start ≠ 0 := by
          rintro rfl
          simp [Buffer.charBefore?] at hsign
        have hlength := le_length_splice s.buffer [] (Nat.sub_le start 1) hstart
        rw [List.length_nil] at hlength
        dsimp only [CursorInside]
        split <;> omega
      · have hlength := le_length_splice s.buffer ['-'] (Nat.le_refl start) hstart
        rw [List.length_singleton] at hlength
        dsimp only [CursorInside, Buffer.insert]
        split <;> omega

theorem cursorInside_moveCursor (h : s.CursorInside) (direction : CursorMove) :
    (s.moveCursor direction).CursorInside := by
  cases direction with
  | left => exact Nat.le_trans (Nat.sub_le ..) h
  | right => exact Nat.min_le_right ..
  | home => exact Nat.zero_le _
  | toEnd => exact Nat.le_refl _

theorem cursorInside_insertConstant (h : s.CursorInside) (constant : Constant) :
    (s.insertConstant constant).CursorInside := by
  unfold insertConstant
  dsimp only
  split
  · exact cursorInside_fill _
  · split
    · exact h
    · split
      · exact cursorInside_insert _
      · split
        · exact h
        · exact cursorInside_insert _

theorem cursorInside_insertDigit (c : Char) : (s.insertDigit c).CursorInside := by
  unfold insertDigit
  split
  · exact cursorInside_fill _
  · split <;> exact cursorInside_insert _

theorem cursorInside_insertOperator (h : s.CursorInside) (c : Char) :
    (s.insertOperator c).CursorInside := by
  unfold insertOperator
  dsimp only
  split
  · exact Buffer.splice_snd_le ..
  · exact h

theorem cursorInside_insertPoint (h : s.CursorInside) : s.insertPoint.CursorInside := by
  unfold insertPoint
  split
  · exact h
  · split
    · exact cursorInside_fill _
    · split
      · exact cursorInside_insert _
      · split <;> exact cursorInside_insert _

theorem cursorInside_insertBracket : s.insertBracket.CursorInside := by
  unfold insertBracket
  split
  · exact cursorInside_insert (s := s) _
  · dsimp only
    split
    · exact cursorInside_fill (s := s) _
    · split <;> exact cursorInside_insert (s := s) _

/-- No edit moves the cursor out of the entry. -/
theorem cursorInside_perform (h : s.CursorInside) (event : Event) :
    (s.perform event).CursorInside := by
  cases event with
  | digit c =>
    dsimp only [perform]
    split
    · exact cursorInside_insertConstant h _
    · exact cursorInside_insertDigit c
  | operator c => exact cursorInside_insertOperator h c
  | point => exact cursorInside_insertPoint h
  | percent =>
    dsimp only [perform, insertPercent]
    split
    · exact cursorInside_insert _
    · exact h
  | clear => exact cursorInside_reset
  | backspace =>
    dsimp only [perform, backspace]
    split
    · exact cursorInside_delete h ..
    · exact h
  | delete start stop => exact cursorInside_delete h ..
  | signToggle => exact cursorInside_toggleSign h
  | bracket => exact cursorInside_insertBracket
  | function key =>
    dsimp only [perform, applyFunction]
    split
    · exact h
    · exact cursorInside_fill _
  | modeToggle => exact cursorInside_reset
  | move direction => exact cursorInside_moveCursor h direction

/-- An event leads to the editor itself or to one that its edit leads to. -/
theorem apply_eq_or (s : Editor) (event : Event) :
    s.apply event = s ∨ s.apply event = s.edit event := by
  unfold apply
  split
  · dsimp only
    split
    · exact .inl rfl
    · exact .inr rfl
  · exact .inl rfl

theorem cursorInside_apply (h : s.CursorInside) (event : Event) : (s.apply event).CursorInside := by
  rcases apply_eq_or s event with he | he <;> rw [he]
  · exact h
  · unfold edit
    split
    · exact cursorInside_perform cursorInside_reset event
    · exact cursorInside_perform h event

theorem cursorInside_commit (h : s.CursorInside) (result : Evaluation) :
    (s.commit result).CursorInside := by
  cases result with
  | number value => exact Nat.le_refl _
  | literal text => exact h
  | error cause => exact h

end Cursor

/-! ## The entry keeps its shape -/

theorem isWellFormed_apply {s : Editor} (h : s.buffer.isWellFormed = true) (event : Event) :
    (s.apply event).buffer.isWellFormed = true := by
  unfold apply
  split
  · dsimp only
    split
    · exact h
    · next hguard =>
      rw [h, Bool.true_and, Bool.not_eq_true, Bool.not_eq_false'] at hguard
      exact hguard
  · exact h

theorem isWellFormed_commit {s : Editor} (h : s.buffer.isWellFormed = true) (result : Evaluation) :
    (s.commit result).buffer.isWellFormed = true := by
  cases result with
  | number value => exact Buffer.isWellFormed_display value
  | literal text => exact h
  | error cause => exact h

/-! ## Whole runs -/

/-- What is done to an editor. -/
inductive Operation where
  | withMode (mode : Mode)
  | withLayout (layout : Layout)
  | event (event : Event)
  /-- Evaluates the entry and shows the result. -/
  | evaluate

def operate (s : Editor) : Operation → Editor
  | .withMode mode => { s with mode }
  | .withLayout layout => { s with layout }
  | .event event => s.apply event
  | .evaluate => s.commit s.evaluate

def run (s : Editor) (operations : List Operation) : Editor :=
  operations.foldl operate s

/-- The editors that runs start with. -/
inductive Origin : Editor → Prop where
  | initial : Origin .initial
  | ofText (text : List Char) : Origin (.ofText text)
  | restored {snapshot : Snapshot} {s : Editor} (h : snapshot.toEditor? = some s) : Origin s

/-- The entry is not empty, the cursor stands in it, and no event computes a position outside it. -/
structure Safe (s : Editor) : Prop where
  nonempty : s.buffer.chars ≠ []
  cursor : s.cursor ≤ s.buffer.chars.length
  positions : ∀ event, Checked.apply s event = some (s.apply event)

theorem CursorInside.safe {s : Editor} (h : s.CursorInside) : s.Safe where
  nonempty := s.buffer.ne_nil
  cursor := h
  positions := Checked.apply_eq s

theorem Origin.cursorInside {s : Editor} (h : Origin s) : s.CursorInside := by
  cases h with
  | initial => exact Nat.le_refl _
  | ofText text => exact Nat.le_refl _
  | @restored snapshot _ h =>
    obtain ⟨layout, -, rfl⟩ := Option.map_eq_some_iff.mp h
    exact Nat.min_le_right ..

theorem cursorInside_operate {s : Editor} (h : s.CursorInside) (operation : Operation) :
    (s.operate operation).CursorInside := by
  cases operation with
  | withMode mode => exact h
  | withLayout layout => exact h
  | event event => exact cursorInside_apply h event
  | evaluate => exact cursorInside_commit h _

theorem isWellFormed_operate {s : Editor} (h : s.buffer.isWellFormed = true)
    (operation : Operation) : (s.operate operation).buffer.isWellFormed = true := by
  cases operation with
  | withMode mode => exact h
  | withLayout layout => exact h
  | event event => exact isWellFormed_apply h event
  | evaluate => exact isWellFormed_commit h _

/-- What each operation of a run keeps, the run keeps. -/
theorem run_keeps {P : Editor → Prop} {operations : List Operation}
    (hkeeps : ∀ operation ∈ operations, ∀ s : Editor, P s → P (s.operate operation)) {s : Editor}
    (h : P s) : P (s.run operations) := by
  induction operations generalizing s with
  | nil => exact h
  | cons operation operations ih =>
    obtain ⟨hfirst, hrest⟩ := List.forall_mem_cons.mp hkeeps
    exact ih hrest (hfirst s h)

theorem cursorInside_run {s : Editor} (h : s.CursorInside) (operations : List Operation) :
    (s.run operations).CursorInside :=
  run_keeps (P := CursorInside) (fun operation _ _ hs => cursorInside_operate hs operation) h

theorem isWellFormed_run {s : Editor} (h : s.buffer.isWellFormed = true)
    (operations : List Operation) : (s.run operations).buffer.isWellFormed = true :=
  run_keeps (P := fun s => s.buffer.isWellFormed = true)
    (fun operation _ _ hs => isWellFormed_operate hs operation) h

end PocketCalculator.Editor
