import PocketCalculator.Editor
import PocketCalculator.Keypad.Key

/-!
# Sessions

An editor with the editors before it, those after it that were undone, and the evaluations that
succeeded. A step that changes the editor can be undone, and forgets what was undone before; one
that leaves it as it is leaves everything as it is. Both memories are bounded and forget the oldest
first.

All stacks are lists with the newest member in front.
-/

namespace PocketCalculator

/-- An evaluation that succeeded: the entry and what the display showed for it. -/
structure Record where
  expression : String
  result : String
  deriving DecidableEq, Repr

/-- What an input did. -/
inductive Outcome where
  | unchanged
  | changed
  /-- An evaluation was asked for. -/
  | evaluated (result : Evaluation)
  deriving DecidableEq

structure Session where
  editor : Editor
  /-- The editors before this one. -/
  past : List Editor
  /-- The editors after this one, which were undone. -/
  future : List Editor
  /-- The successful evaluations. -/
  records : List Record
  undoLimit : Nat
  historyLimit : Nat
  deriving DecidableEq

namespace Session

def start (editor : Editor) (undoLimit historyLimit : Nat) : Session :=
  ⟨editor, [], [], [], undoLimit, historyLimit⟩

def defaultUndoLimit : Nat :=
  100

def defaultHistoryLimit : Nat :=
  50

def display (s : Session) : String :=
  s.editor.display

def history (s : Session) : List Record :=
  s.records.reverse

/-! ## Bounded memories -/

section Push

variable {α : Type} {limit : Nat} {newest : α} {stack : List α}

/-- Puts a member on a stack. If there are then more than the limit allows, the oldest goes, and no
other one: a stack that was too long before stays as long as it was. -/
def push (limit : Nat) (newest : α) (stack : List α) : List α :=
  if limit < (newest :: stack).length then (newest :: stack).dropLast else newest :: stack

theorem mem_of_mem_push {a : α} (h : a ∈ push limit newest stack) : a ∈ newest :: stack := by
  unfold push at h
  split at h
  · exact (List.dropLast_sublist _).subset h
  · exact h

/-- Within the limit there is at most one member too many. -/
theorem push_eq_take (h : stack.length ≤ limit) :
    push limit newest stack = (newest :: stack).take limit := by
  unfold push
  split
  · next hfull =>
    have hlimit : limit = (newest :: stack).length - 1 :=
      Nat.le_antisymm (Nat.le_sub_one_of_lt hfull) h
    rw [List.dropLast_eq_take, ← hlimit]
  · next hroom => exact (List.take_of_length_le (Nat.le_of_not_lt hroom)).symm

-- Where the limit was higher before, the two differ.
example : push 1 4 [3, 2, 1] = [4, 3, 2] := rfl

end Push

/-! ## Inputs -/

/-- Goes on to another editor, if it is another. -/
def moveTo (s : Session) (next : Editor) : Session × Outcome :=
  if next = s.editor then (s, .unchanged)
  else
    ({ s with editor := next, past := push s.undoLimit s.editor s.past, future := [] }, .changed)

def remember (s : Session) (record : Record) : Session :=
  { s with records := push s.historyLimit record s.records }

def applyEvent (s : Session) (event : Event) : Session × Outcome :=
  s.moveTo (s.editor.apply event)

/-- Evaluates the entry and shows the result. A success is recorded, unless it is an overlay that
was showing already. -/
def evaluate (s : Session) : Session × Outcome :=
  let result := s.editor.evaluate
  -- The record does not make the step one that can be undone; only a changed editor does.
  let recorded :=
    if s.editor.overlay.isNone && result.isSuccess then
      s.remember ⟨String.ofList s.editor.buffer.chars, result.display⟩
    else s
  ((recorded.moveTo (s.editor.commit result)).1, .evaluated result)

def applyAction (s : Session) : Action → Session × Outcome
  | .edit event => s.applyEvent event
  | .evaluate => s.evaluate

/-- A key of the keyboard. Keys without a meaning do nothing. -/
def applyKey (s : Session) (key : Key) : Session × Outcome :=
  match key.action? s.editor.cursor with
  | some action => s.applyAction action
  | none => (s, .unchanged)

/-- A key of the keypad by its label, if there is such a key. -/
def press? (s : Session) (label : String) : Option (Session × Outcome) :=
  (Action.ofLabel? label).map s.applyAction

/-- Changes to a mode, if it is another. -/
def setMode (s : Session) (mode : Mode) : Session × Outcome :=
  if s.editor.mode = mode then (s, .unchanged) else s.applyEvent .modeToggle

/-- Goes back to the editor before, if there is one. -/
def undo? (s : Session) : Option Session :=
  match s.past with
  | [] => none
  | previous :: past =>
    some { s with editor := previous, past, future := s.editor :: s.future }

/-- Goes forward again to the editor that the last undo left, if there is one. -/
def redo? (s : Session) : Option Session :=
  match s.future with
  | [] => none
  | next :: future => some { s with editor := next, past := s.editor :: s.past, future }

def clearHistory (s : Session) : Session :=
  { s with records := [] }

/-! ## Requests -/

inductive Request where
  | event (event : Event)
  | key (key : Key)
  | press (label : String)
  | setMode (mode : Mode)
  | evaluate
  | undo
  | redo
  | clearHistory
  deriving DecidableEq, Repr

inductive Reply where
  | outcome (outcome : Outcome)
  /-- A label that no key has. -/
  | noSuchKey
  /-- Whether there was something to undo or redo. -/
  | moved (done : Bool)
  | done
  deriving DecidableEq

/-- The reply of an input that has an outcome. -/
def withOutcome (result : Session × Outcome) : Session × Reply :=
  (result.1, .outcome result.2)

def step (s : Session) : Request → Session × Reply
  | .event event => withOutcome (s.applyEvent event)
  | .key key => withOutcome (s.applyKey key)
  | .press label =>
    match s.press? label with
    | some result => withOutcome result
    | none => (s, .noSuchKey)
  | .setMode mode => withOutcome (s.setMode mode)
  | .evaluate => withOutcome s.evaluate
  | .undo => (s.undo?.getD s, .moved s.undo?.isSome)
  | .redo => (s.redo?.getD s, .moved s.redo?.isSome)
  | .clearHistory => (s.clearHistory, .done)

def run (s : Session) (requests : List Request) : Session :=
  requests.foldl (fun s request => (s.step request).1) s

end Session

end PocketCalculator
