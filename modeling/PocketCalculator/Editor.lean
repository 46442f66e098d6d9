import PocketCalculator.Buffer
import PocketCalculator.Evaluation
import PocketCalculator.Keypad.Layout

/-!
# The editor

An entry with its cursor, the mode and layout it is keyed in with, and what covers it on the
display. `Editor.apply` answers one event. An event that the layout does not show is refused, and
so is an edit after which a well-formed entry would no longer be one; a refused event changes
nothing.

An evaluation is `commit`ted: a number takes the place of the entry, and anything else is laid over
it until the next event, which starts from an empty entry.
-/

namespace PocketCalculator

/-- What covers the entry after an evaluation that gave no number. -/
inductive Overlay where
  | literal (text : String)
  | error (cause : EvalError)
  deriving DecidableEq, Repr

def Overlay.display : Overlay → String
  | literal text => text
  | error _ => EvalError.displayText

def Overlay.evaluation : Overlay → Evaluation
  | literal text => .literal text
  | error cause => .error cause

structure Editor where
  buffer : Buffer
  cursor : Nat
  mode : Mode
  layout : Layout
  /-- Whether the bracket key closes a bracket at its next press. -/
  bracketCloses : Bool
  overlay : Option Overlay
  deriving DecidableEq

namespace Editor

/-- Nothing keyed in, in basic mode on the classic layout. -/
def initial : Editor where
  buffer := .zero
  cursor := Buffer.zero.length
  mode := .basic
  layout := .classic
  bracketCloses := false
  overlay := none

/-- An entry with the cursor at its end. -/
def ofText (text : List Char) : Editor :=
  let buffer := Buffer.ofChars text
  { initial with buffer, cursor := buffer.length }

def display (s : Editor) : String :=
  match s.overlay with
  | some overlay => overlay.display
  | none => String.ofList s.buffer.chars

/-! ## Parts of edits -/

/-- An empty entry without an overlay; mode and layout stay. -/
def reset (s : Editor) : Editor :=
  { s with buffer := .zero, cursor := Buffer.zero.length, bracketCloses := false, overlay := none }

/-- Inserts at the cursor, which goes behind the insertion. -/
def insert (s : Editor) (text : List Char) : Editor :=
  let (buffer, cursor) := s.buffer.insert s.cursor text
  { s with buffer, cursor }

/-- Puts a text in place of the entry, with the cursor at its end. -/
def fill (s : Editor) (text : List Char) : Editor :=
  let buffer := Buffer.ofChars text
  { s with buffer, cursor := buffer.length }

def isNumberChar (c : Char) : Bool :=
  c.isDigit || c == '.'

/-- The cursor stands behind a digit or a point. -/
def afterDigit (s : Editor) : Bool :=
  (s.buffer.charBefore? s.cursor).any isNumberChar

/-- The cursor stands before a digit or a point. -/
def beforeDigit (s : Editor) : Bool :=
  (s.buffer.charAt? s.cursor).any isNumberChar

/-- The cursor stands behind an operand that can go no further: behind a closing bracket, a percent
sign, or a bar that closes, which every second bar does. -/
def afterClosedOperand (s : Editor) : Bool :=
  match s.buffer.charBefore? s.cursor with
  | some ')' | some '%' => true
  | some '|' => (s.buffer.chars.take s.cursor).count '|' % 2 == 0
  | _ => false

/-! ## Edits by kind -/

/-- A digit takes the place of a lone zero, and is a factor of an operand that is closed. -/
def insertDigit (s : Editor) (c : Char) : Editor :=
  if s.buffer.isZero then s.fill [c]
  else if s.afterClosedOperand then s.insert ['*', c]
  else s.insert [c]

/-- A constant stays a number of its own: it is a factor after an operand, and is refused where it
would run into the number behind it. -/
def insertConstant (s : Editor) (constant : Constant) : Editor :=
  let text := constant.expanded
  if s.buffer.isZero then s.fill text
  else if s.beforeDigit then s
  else if s.afterDigit || s.afterClosedOperand then s.insert ('*' :: text)
  else if s.buffer.segmentHasPoint s.cursor then s
  else s.insert text

/-- An operator takes the place of all operators around the cursor. -/
def insertOperator (s : Editor) (c : Char) : Editor :=
  let operator := Glyph.canonical c
  if Glyph.isOperator operator then
    let (buffer, cursor) := s.buffer.splice (s.buffer.operatorsStart s.cursor)
      (s.buffer.operatorsStop s.cursor) [operator]
    { s with buffer, cursor }
  else s

/-- A point, with a zero before it where no digit is, unless the operand has one already. -/
def insertPoint (s : Editor) : Editor :=
  if s.buffer.segmentHasPoint s.cursor then s
  else if s.buffer.isZero then s.fill ['0', '.']
  else if s.afterClosedOperand then s.insert ['*', '0', '.']
  else if s.afterDigit then s.insert ['.']
  else s.insert ['0', '.']

/-- A percent sign, behind a digit or a closing bracket only. -/
def insertPercent (s : Editor) : Editor :=
  if (s.buffer.charBefore? s.cursor).any fun c => c.isDigit || c == ')' then s.insert ['%'] else s

/-- Closes the bracket that the key opened, or opens one. -/
def insertBracket (s : Editor) : Editor :=
  if s.bracketCloses then { s.insert [')'] with bracketCloses := false }
  else
    let opened :=
      if s.buffer.isZero then s.fill ['(']
      else if s.afterDigit || s.afterClosedOperand then s.insert ['*', '(']
      else s.insert ['(']
    { opened with bracketCloses := true }

/-- Deletes a range, unless that would bring two operators together or two points into one
operand. -/
def delete (s : Editor) (start stop : Nat) : Editor :=
  if start < min stop s.buffer.length then
    let (buffer, cursor) := s.buffer.splice start stop []
    let joinsOperators := (buffer.charBefore? start).any Glyph.isOperator
      && (buffer.charAt? start).any Glyph.isOperator
    if joinsOperators || 1 < buffer.segmentPoints start then s else { s with buffer, cursor }
  else s

def backspace (s : Editor) : Editor :=
  if 0 < s.cursor then s.delete (s.cursor - 1) s.cursor else s

/-- A minus at this position is a sign: nothing, an operator or an opening bracket is before it. -/
def isSignPosition (b : Buffer) (pos : Nat) : Bool :=
  match b.charBefore? pos with
  | none => true
  | some c => Glyph.isOperator c || c == '('

/-- The number at the end of the entry loses its sign, or gets one. -/
def toggleSign (s : Editor) : Editor :=
  if s.buffer.isZero then s
  else
    match s.buffer.trailingNumber? with
    | none => s
    | some start =>
      if s.buffer.charBefore? start == some '-' && isSignPosition s.buffer (start - 1) then
        { s with
          buffer := (s.buffer.splice (start - 1) start []).1
          cursor := if start - 1 < s.cursor then s.cursor - 1 else s.cursor }
      else
        { s with
          buffer := (s.buffer.insert start ['-']).1
          cursor := if start ≤ s.cursor then s.cursor + 1 else s.cursor }

/-- Applies a function key to the whole entry, unless that ends with an operator. -/
def applyFunction (s : Editor) (key : FunctionKey) : Editor :=
  if s.buffer.endsWithOperator then s else s.fill (key.wrap s.buffer.chars)

def moveCursor (s : Editor) (direction : CursorMove) : Editor :=
  { s with
    cursor := match direction with
      | .left => s.cursor - 1
      | .right => min (s.cursor + 1) s.buffer.length
      | .home => 0
      | .toEnd => s.buffer.length }

/-! ## Events and evaluations -/

/-- The edit that an event makes in an entry without an overlay. -/
def perform (s : Editor) : Event → Editor
  | .clear => s.reset
  | .digit c =>
    match Constant.ofSymbol? c with
    | some constant => s.insertConstant constant
    | none => s.insertDigit c
  | .operator c => s.insertOperator c
  | .point => s.insertPoint
  | .percent => s.insertPercent
  | .bracket => s.insertBracket
  | .signToggle => s.toggleSign
  | .function key => s.applyFunction key
  | .backspace => s.backspace
  | .delete start stop => s.delete start stop
  | .modeToggle => { s with mode := s.mode.toggled }.reset
  | .move direction => s.moveCursor direction

/-- The edit that an event makes. It starts afresh if an overlay is showing. -/
def edit (s : Editor) (event : Event) : Editor :=
  if s.overlay.isSome then s.reset.perform event else s.perform event

def apply (s : Editor) (event : Event) : Editor :=
  if s.layout.accepts s.mode event then
    let next := s.edit event
    -- An entry that was odd before may stay so: a restored one can be mended by hand.
    if s.buffer.isWellFormed && !next.buffer.isWellFormed then s else next
  else s

/-- The evaluation of the entry, or what an overlay stands for. -/
def evaluate (s : Editor) : Evaluation :=
  match s.overlay with
  | some overlay => overlay.evaluation
  | none => .ofText s.buffer.chars

def commit (s : Editor) : Evaluation → Editor
  | .number value =>
    { s.fill (Numeral.display value) with bracketCloses := false, overlay := none }
  | .literal text => { s with overlay := some (.literal text) }
  | .error cause => { s with overlay := some (.error cause) }

end Editor

end PocketCalculator
