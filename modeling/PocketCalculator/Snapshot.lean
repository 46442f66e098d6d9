import PocketCalculator.Json.Read
import PocketCalculator.Json.Write
import PocketCalculator.Session

/-!
# Snapshots

What is kept of a session outside it: the editor in full, its layout by name, and how much can be
undone, redone and remembered. A snapshot is written as JSON, and an editor is restored from it.
-/

namespace PocketCalculator

structure Snapshot where
  mode : Mode
  /-- The name of the layout. -/
  layout : String
  buffer : String
  cursor : Nat
  bracketCloses : Bool
  overlay : Option Overlay
  undoDepth : Nat
  redoDepth : Nat
  historyLength : Nat
  deriving DecidableEq, Repr

namespace Snapshot

def ofSession (s : Session) : Snapshot where
  mode := s.editor.mode
  layout := s.editor.layout.name
  buffer := String.ofList s.editor.buffer.chars
  cursor := s.editor.cursor
  bracketCloses := s.editor.bracketCloses
  overlay := s.editor.overlay
  undoDepth := s.past.length
  redoDepth := s.future.length
  historyLength := s.records.length

/-- The editor, if the layout is known. A cursor past the end stands at the end. -/
def toEditor? (s : Snapshot) : Option Editor :=
  (Layout.ofName? s.layout).map fun layout =>
    let buffer := Buffer.ofChars s.buffer.toList
    { buffer
      cursor := min s.cursor buffer.length
      mode := s.mode
      layout
      bracketCloses := s.bracketCloses
      overlay := s.overlay }

end Snapshot

/-! ## Written forms -/

namespace Mode

/-- The name of a mode in a snapshot. -/
def key : Mode → String
  | basic => "Basic"
  | scientific => "Scientific"

def toJson (mode : Mode) : Json :=
  .string mode.key

def ofJson? (j : Json) : Option Mode := do
  match ← j.toCase? with
  | .alone "Basic" => some basic
  | .alone "Scientific" => some scientific
  | _ => none

end Mode

namespace EvalError

def key : EvalError → String
  | noOperand => "InvalidOperandEmpty"
  | unbalanced => "UnbalancedParentheses"
  | trailingOperator => "TrailingOperator"
  | notFinite => "NonFiniteResult"
  | malformedArgument _ => "MalformedFunctionArgument"
  | unexpectedToken _ => "UnexpectedToken"
  | unknownIdentifier _ => "UnknownIdentifier"
  | invalidNumber _ => "InvalidNumber"
  | tooDeep => "NestingTooDeep"

def detail? : EvalError → Option String
  | malformedArgument text | unexpectedToken text | unknownIdentifier text | invalidNumber text =>
    some text
  | _ => none

/-- The cause with a name and no text. -/
def ofKey? : String → Option EvalError
  | "InvalidOperandEmpty" => some noOperand
  | "UnbalancedParentheses" => some unbalanced
  | "TrailingOperator" => some trailingOperator
  | "NonFiniteResult" => some notFinite
  | "NestingTooDeep" => some tooDeep
  | _ => none

/-- The cause with a name and a text. -/
def ofKeyAndText? (name text : String) : Option EvalError :=
  match name with
  | "MalformedFunctionArgument" => some (malformedArgument text)
  | "UnexpectedToken" => some (unexpectedToken text)
  | "UnknownIdentifier" => some (unknownIdentifier text)
  | "InvalidNumber" => some (invalidNumber text)
  | _ => none

def toJson (cause : EvalError) : Json :=
  match cause.detail? with
  | none => .string cause.key
  | some text => .object [(cause.key, .string text)]

def ofJson? (j : Json) : Option EvalError := do
  match ← j.toCase? with
  | .alone name => ofKey? name
  | .holding name value => ofKeyAndText? name (← value.toString?)

end EvalError

namespace Overlay

def toJson : Overlay → Json
  | literal text => .object [("Literal", .string text)]
  | error cause => .object [("Error", cause.toJson)]

def ofJson? (j : Json) : Option Overlay := do
  match ← j.toCase? with
  | .holding "Literal" value => return literal (← value.toString?)
  | .holding "Error" value => return error (← EvalError.ofJson? value)
  | _ => none

def toJsonOrNull : Option Overlay → Json
  | none => .null
  | some overlay => overlay.toJson

def ofJsonOrNull? : Json → Option (Option Overlay)
  | .null => some none
  | j => (ofJson? j).map some

end Overlay

namespace Snapshot

def countLimit : Nat :=
  Nat.pow 2 64 - 1

/-- The names of the fields in the order in which they are written. -/
def fieldNames : List String :=
  ["mode", "layout", "buffer", "cursor", "next_bracket_closes", "overlay", "undo_depth",
    "redo_depth", "history_len"]

def toJson (s : Snapshot) : Json :=
  .object (fieldNames.zip
    [s.mode.toJson, .string s.layout, .string s.buffer, .integer s.cursor, .bool s.bracketCloses,
      Overlay.toJsonOrNull s.overlay, .integer s.undoDepth, .integer s.redoDepth,
      .integer s.historyLength])

/-- Reads a snapshot. All fields have to be there but for the overlay of an object, which may be
left out where there is none. -/
def ofJson? (j : Json) : Option Snapshot := do
  match ← j.fields? fieldNames with
  | [some mode, some layout, some buffer, some cursor, some bracketCloses, overlay, some undoDepth,
      some redoDepth, some historyLength] =>
    some
      { mode := ← Mode.ofJson? mode
        layout := ← layout.toString?
        buffer := ← buffer.toString?
        cursor := ← cursor.toNat? countLimit
        bracketCloses := ← bracketCloses.toBool?
        overlay := ← Overlay.ofJsonOrNull? (overlay.getD .null)
        undoDepth := ← undoDepth.toNat? countLimit
        redoDepth := ← redoDepth.toNat? countLimit
        historyLength := ← historyLength.toNat? countLimit }
  | _ => none

def encode (s : Snapshot) : String :=
  s.toJson.compact

def decode? (text : List Char) : Option Snapshot := do
  ofJson? (← Json.ofText? text)

end Snapshot

end PocketCalculator
