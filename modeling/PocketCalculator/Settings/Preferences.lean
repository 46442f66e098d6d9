import PocketCalculator.Session
import PocketCalculator.Settings.Registry

/-!
# Preferences

The settings of the calculator by what they mean, and how they are read from a registry. They are
read one after the other, and the first that cannot be read is the error.
-/

namespace PocketCalculator.Settings

/-! ## Keys -/

def startModeKey : String :=
  "calculator.start_mode"

def displayWidthKey : String :=
  "display.width"

def historyLimitKey : String :=
  "history.limit"

def undoLimitKey : String :=
  "undo.limit"

def layoutKey : String :=
  "keypad.layout"

structure Preferences where
  startMode : Mode
  displayWidth : Nat
  historyLimit : Nat
  undoLimit : Nat
  layout : Layout
  deriving DecidableEq, Repr

namespace Preferences

def defaultDisplayWidth : Nat :=
  23

def default : Preferences where
  startMode := .basic
  displayWidth := defaultDisplayWidth
  historyLimit := Session.defaultHistoryLimit
  undoLimit := Session.defaultUndoLimit
  layout := .classic

end Preferences

namespace Registry

/-- The registry with the defaults of the calculator. -/
def calculator : Registry :=
  empty
    |>.register startModeKey (.string "basic")
    |>.register displayWidthKey (.integer (.ofNat Preferences.defaultDisplayWidth))
    |>.register historyLimitKey (.integer (.ofNat Session.defaultHistoryLimit))
    |>.register undoLimitKey (.integer (.ofNat Session.defaultUndoLimit))
    |>.register layoutKey (.string Layout.classic.name)

/-! ## Reading settings -/

def getValue (r : Registry) (key : String) : Except Error Value :=
  match r.get? key with
  | some value => .ok value
  | none => .error (.unknownKey key)

def getString (r : Registry) (key : String) : Except Error String := do
  match ← r.getValue key with
  | .string text => .ok text
  | .integer _ => .error (.kindMismatch key .string .integer)

def getCount (r : Registry) (key : String) : Except Error Nat := do
  match ← r.getValue key with
  | .integer value =>
    if value < 0 then .error (.invalidValue key (toString value.toInt)) else .ok value.toNatClampNeg
  | .string _ => .error (.kindMismatch key .integer .string)

def getNamed {α : Type} (r : Registry) (key : String) (ofName? : String → Option α) :
    Except Error α := do
  let name ← r.getString key
  match ofName? name with
  | some value => .ok value
  | none => .error (.invalidValue key name)

def getPositive (r : Registry) (key : String) : Except Error Nat := do
  let n ← r.getCount key
  if n = 0 then .error (.invalidValue key "0") else .ok n

def preferences (r : Registry) : Except Error Preferences := do
  let startMode ← r.getNamed startModeKey Mode.ofName?
  let layout ← r.getNamed layoutKey Layout.ofName?
  let displayWidth ← r.getPositive displayWidthKey
  let historyLimit ← r.getCount historyLimitKey
  let undoLimit ← r.getCount undoLimitKey
  .ok { startMode, displayWidth, historyLimit, undoLimit, layout }

end Registry

end PocketCalculator.Settings
