import PocketCalculator.Editor
import PocketCalculator.Proofs.Buffer.Positions

/-!
# Edits that check their positions

The edits again, with every position computed by a step that fails if it goes below zero or leaves
the text. `Checked.apply_eq` says that no event makes one fail in any editor, wherever its cursor is,
and that the editor it gives is the one that `Editor.apply` gives.
-/

namespace PocketCalculator.Checked

/-! ## Parts of edits -/

def insert (s : Editor) (text : List Char) : Option Editor := do
  let (buffer, cursor) ← splice s.buffer s.cursor s.cursor text
  some { s with buffer, cursor }

/-- Whether the operand around the cursor has a point. -/
def segmentHasPoint (s : Editor) : Option Bool := do
  let points ← segmentPoints s.buffer s.cursor
  some (0 < points)

/-- The cursor after the character at a position is gone. -/
def follow (pos cursor : Nat) : Option Nat :=
  if pos < cursor then sub cursor 1 else some cursor

@[simp] theorem insert_eq (s : Editor) (text : List Char) :
    insert s text = some (s.insert text) := by
  rw [insert, splice_eq]
  rfl

@[simp] theorem segmentHasPoint_eq (s : Editor) :
    segmentHasPoint s = some (s.buffer.segmentHasPoint s.cursor) := by
  rw [segmentHasPoint, segmentPoints_eq]
  rfl

theorem follow_eq (pos cursor : Nat) :
    follow pos cursor = some (if pos < cursor then cursor - 1 else cursor) := by
  unfold follow
  split
  · next hlt => exact sub_eq (Nat.lt_of_le_of_lt (Nat.zero_le _) hlt)
  · rfl

/-! ## Edits by kind -/

def insertDigit (s : Editor) (c : Char) : Option Editor :=
  if s.buffer.isZero then some (s.fill [c])
  else if s.afterClosedOperand then insert s ['*', c]
  else insert s [c]

def insertConstant (s : Editor) (constant : Constant) : Option Editor :=
  let text := constant.expanded
  if s.buffer.isZero then some (s.fill text)
  else if s.beforeDigit then some s
  else if s.afterDigit || s.afterClosedOperand then insert s ('*' :: text)
  else do if ← segmentHasPoint s then some s else insert s text

def insertOperator (s : Editor) (c : Char) : Option Editor :=
  let operator := Glyph.canonical c
  if Glyph.isOperator operator then do
    let start ← operatorsStart s.buffer s.cursor
    let stop ← operatorsStop s.buffer s.cursor
    let (buffer, cursor) ← splice s.buffer start stop [operator]
    some { s with buffer, cursor }
  else some s

def insertPoint (s : Editor) : Option Editor := do
  if ← segmentHasPoint s then some s
  else if s.buffer.isZero then some (s.fill ['0', '.'])
  else if s.afterClosedOperand then insert s ['*', '0', '.']
  else if s.afterDigit then insert s ['.']
  else insert s ['0', '.']

def insertPercent (s : Editor) : Option Editor :=
  if (s.buffer.charBefore? s.cursor).any fun c => c.isDigit || c == ')' then insert s ['%']
  else some s

def insertBracket (s : Editor) : Option Editor :=
  if s.bracketCloses then do
    let closed ← insert s [')']
    some { closed with bracketCloses := false }
  else do
    let opened ←
      if s.buffer.isZero then some (s.fill ['('])
      else if s.afterDigit || s.afterClosedOperand then insert s ['*', '(']
      else insert s ['(']
    some { opened with bracketCloses := true }

def delete (s : Editor) (start stop : Nat) : Option Editor :=
  if start < min stop s.buffer.length then do
    let (buffer, cursor) ← splice s.buffer start stop []
    let points ← segmentPoints buffer start
    let joinsOperators := (buffer.charBefore? start).any Glyph.isOperator
      && (buffer.charAt? start).any Glyph.isOperator
    some (if joinsOperators || 1 < points then s else { s with buffer, cursor })
  else some s

def backspace (s : Editor) : Option Editor :=
  if 0 < s.cursor then do
    let start ← sub s.cursor 1
    delete s start s.cursor
  else some s

def toggleSign (s : Editor) : Option Editor :=
  if s.buffer.isZero then some s
  else do
    match ← trailingNumber s.buffer with
    | none => some s
    | some start =>
      if s.buffer.charBefore? start == some '-' && Editor.isSignPosition s.buffer (start - 1) then do
        let sign ← sub start 1
        let (buffer, _) ← splice s.buffer sign start []
        let cursor ← follow sign s.cursor
        some { s with buffer, cursor }
      else do
        let (buffer, _) ← splice s.buffer start start ['-']
        some { s with buffer, cursor := if start ≤ s.cursor then s.cursor + 1 else s.cursor }

def perform (s : Editor) : Event → Option Editor
  | .clear => some s.reset
  | .digit c =>
    match Constant.ofSymbol? c with
    | some constant => insertConstant s constant
    | none => insertDigit s c
  | .operator c => insertOperator s c
  | .point => insertPoint s
  | .percent => insertPercent s
  | .bracket => insertBracket s
  | .signToggle => toggleSign s
  | .function key => some (s.applyFunction key)
  | .backspace => backspace s
  | .delete start stop => delete s start stop
  | .modeToggle => some { s with mode := s.mode.toggled }.reset
  | .move direction => some (s.moveCursor direction)

def edit (s : Editor) (event : Event) : Option Editor :=
  if s.overlay.isSome then perform s.reset event else perform s event

def apply (s : Editor) (event : Event) : Option Editor :=
  if s.layout.accepts s.mode event then do
    let next ← edit s event
    some (if s.buffer.isWellFormed && !next.buffer.isWellFormed then s else next)
  else some s

/-! ## No check fails -/

variable (s : Editor)

theorem insertDigit_eq (c : Char) : insertDigit s c = some (s.insertDigit c) := by
  unfold insertDigit Editor.insertDigit
  split
  · rfl
  · split <;> exact insert_eq ..

theorem insertConstant_eq (constant : Constant) :
    insertConstant s constant = some (s.insertConstant constant) := by
  unfold insertConstant Editor.insertConstant
  dsimp only
  split
  · rfl
  · split
    · rfl
    · split
      · exact insert_eq ..
      · rw [segmentHasPoint_eq, Option.bind_eq_bind, Option.bind_some]
        split
        · rfl
        · exact insert_eq ..

theorem insertOperator_eq (c : Char) : insertOperator s c = some (s.insertOperator c) := by
  unfold insertOperator Editor.insertOperator
  dsimp only
  split
  · rw [operatorsStart_eq, operatorsStop_eq]
    simp only [Option.bind_eq_bind, Option.bind_some, splice_eq]
  · rfl

theorem insertPoint_eq : insertPoint s = some s.insertPoint := by
  unfold insertPoint Editor.insertPoint
  rw [segmentHasPoint_eq, Option.bind_eq_bind, Option.bind_some]
  split
  · rfl
  · split
    · rfl
    · split
      · exact insert_eq ..
      · split <;> exact insert_eq ..

theorem insertPercent_eq : insertPercent s = some s.insertPercent := by
  unfold insertPercent Editor.insertPercent
  split
  · exact insert_eq ..
  · rfl

theorem insertBracket_eq : insertBracket s = some s.insertBracket := by
  unfold insertBracket Editor.insertBracket
  dsimp only
  split
  · rw [insert_eq]
    rfl
  · split
    · rfl
    · split
      · rw [insert_eq]
        rfl
      · rw [insert_eq]
        rfl

theorem delete_eq (start stop : Nat) : delete s start stop = some (s.delete start stop) := by
  unfold delete Editor.delete
  split
  · simp only [splice_eq, segmentPoints_eq, Option.bind_eq_bind, Option.bind_some]
  · rfl

theorem backspace_eq : backspace s = some s.backspace := by
  unfold backspace Editor.backspace
  split
  · next hpos =>
    rw [sub_eq hpos]
    exact delete_eq s ..
  · rfl

theorem toggleSign_eq : toggleSign s = some s.toggleSign := by
  unfold toggleSign Editor.toggleSign
  split
  · rfl
  · rw [trailingNumber_eq, Option.bind_eq_bind, Option.bind_some]
    cases s.buffer.trailingNumber? with
    | none => rfl
    | some start =>
      dsimp only
      split
      · next hsign =>
        -- There is a sign before the number, so the number does not start the text.
        have hstart : 1 ≤ start := by
          cases start with
          | zero => simp [Buffer.charBefore?] at hsign
          | succ start => exact Nat.succ_le_succ (Nat.zero_le _)
        rw [sub_eq hstart]
        simp only [Option.bind_eq_bind, Option.bind_some, splice_eq, follow_eq]
      · simp only [Option.bind_eq_bind, Option.bind_some, splice_eq]
        rfl

theorem perform_eq (event : Event) : perform s event = some (s.perform event) := by
  cases event with
  | digit c =>
    dsimp only [perform, Editor.perform]
    cases Constant.ofSymbol? c with
    | some constant => exact insertConstant_eq s constant
    | none => exact insertDigit_eq s c
  | operator c => exact insertOperator_eq s c
  | point => exact insertPoint_eq s
  | percent => exact insertPercent_eq s
  | bracket => exact insertBracket_eq s
  | signToggle => exact toggleSign_eq s
  | backspace => exact backspace_eq s
  | delete start stop => exact delete_eq s start stop
  | _ => rfl

theorem edit_eq (event : Event) : edit s event = some (s.edit event) := by
  unfold edit Editor.edit
  split
  · exact perform_eq s.reset event
  · exact perform_eq s event

/-- **No position that an event computes is below zero or outside the text.** -/
theorem apply_eq (event : Event) : apply s event = some (s.apply event) := by
  unfold apply Editor.apply
  split
  · rw [edit_eq]
    rfl
  · rfl

end PocketCalculator.Checked
