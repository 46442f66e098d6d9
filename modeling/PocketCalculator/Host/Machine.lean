import PocketCalculator.Host.Frame
import PocketCalculator.Host.Script
import PocketCalculator.Settings.File
import PocketCalculator.Settings.Preferences

/-!
# The host

The host feeds inputs to a session and writes frames of it. It shows an evaluation at once, and
other changes once the script or the line that made them is done. What it has written and logged is
part of its state, so a run is a function of its inputs.

`run` takes the inputs of a script, `interact` the lines of a dialogue. Both stop at a quit, and
after a number of steps if one is set.
-/

namespace PocketCalculator.Host

/-- Why a host cannot start or go on. -/
inductive Error where
  | script (cause : ScriptError)
  | settings (cause : Settings.Error)
  | file (cause : Settings.FileError)
  | io (cause : Settings.IoError)
  deriving DecidableEq, Repr

def Error.message : Error → String
  | script cause => "Script error: " ++ cause.message
  | settings cause => "Settings error: " ++ cause.message
  | file cause => "Settings file error: " ++ cause.message
  | io cause => "I/O error: " ++ cause.message

inductive LogEntry where
  | evaluated (expression result : String)
  | evaluationFailed (expression : String) (cause : EvalError)
  | quitRequested (steps : Nat)
  | unknownButton (label : String)
  | ignoredLine (cause : ScriptError)
  | ignoredSetting (cause : Settings.Error)
  deriving DecidableEq, Repr

def LogEntry.text : LogEntry → String
  | evaluated expression result =>
    "INFO evaluated expression=" ++ expression ++ " result=" ++ result
  | evaluationFailed expression cause =>
    "INFO evaluation failed expression=" ++ expression ++ " error=" ++ cause.message
  | quitRequested steps => "INFO quit requested steps=" ++ toString steps
  | unknownButton label => "WARN unknown button label=" ++ label
  | ignoredLine cause => "WARN ignoring input line error=" ++ cause.message
  | ignoredSetting cause => "WARN ignoring settings entry error=" ++ cause.message

inductive Output where
  | frame (text : String)
  | noHistory
  | record (record : Record)
  /-- An answer to a line that cannot be read. -/
  | complaint (cause : ScriptError)
  deriving DecidableEq, Repr

def Output.text : Output → String
  | frame text => text
  | noHistory => "(no history)"
  | record r => r.expression ++ " = " ++ r.result
  | complaint cause => "? " ++ cause.message

structure Machine where
  session : Session
  width : Nat
  /-- How many steps may be made; zero is no limit. -/
  maxSteps : Nat
  steps : Nat
  isShutDown : Bool
  /-- The display has changed since the last frame. -/
  framePending : Bool
  /-- What is written, the newest first. -/
  outputs : List Output
  /-- What is logged, the newest first. -/
  logs : List LogEntry

namespace Machine

def start (preferences : Settings.Preferences) (maxSteps : Nat) : Machine where
  session := Session.start
    { Editor.initial with mode := preferences.startMode, layout := preferences.layout }
    preferences.undoLimit preferences.historyLimit
  width := preferences.displayWidth
  maxSteps
  steps := 0
  isShutDown := false
  framePending := false
  outputs := []
  logs := []

/-- The frame of the session as it is. -/
def currentFrame (m : Machine) : String :=
  frame m.session m.width

def written (m : Machine) : String :=
  String.join (m.outputs.reverse.map fun output => output.text ++ "\n")

def write (m : Machine) (output : Output) : Machine :=
  { m with outputs := output :: m.outputs }

def log (m : Machine) (entry : LogEntry) : Machine :=
  { m with logs := entry :: m.logs }

def render (m : Machine) : Machine :=
  { m.write (.frame m.currentFrame) with framePending := false }

/-- Writes a frame if the display has changed since the last. -/
def flush (m : Machine) : Machine :=
  if m.framePending then m.render else m

def canStep (m : Machine) : Bool :=
  !m.isShutDown && (m.maxSteps == 0 || m.steps < m.maxSteps)

/-! ## Steps -/

def evaluationEntry (expression : String) : Evaluation → LogEntry
  | .error cause => .evaluationFailed expression cause
  | result => .evaluated expression result.display

/-- Takes over the session after an input, whose entry was `expression` before. -/
def settle (m : Machine) (expression : String) (result : Session × Outcome) : Machine :=
  let m := { m with session := result.1 }
  match result.2 with
  | .unchanged => m
  | .changed => { m with framePending := true }
  | .evaluated evaluation => (m.log (evaluationEntry expression evaluation)).render

/-- Takes over the session after a command that may have changed it. -/
def settleMode (m : Machine) (result : Session × Outcome) : Machine :=
  let m := { m with session := result.1 }
  if result.2 = .changed then { m with framePending := true } else m

/-- Takes over the session of a successful undo or redo. -/
def settleMove (m : Machine) : Option Session → Machine
  | some session => { m with session, framePending := true }
  | none => m

def writeHistory (m : Machine) : Machine :=
  match m.session.history with
  | [] => m.write .noHistory
  | history => history.foldl (fun m r => m.write (.record r)) m

def execute (m : Machine) : Command → Machine
  | .mode (.set mode) => m.settleMode (m.session.setMode mode)
  | .mode .toggle => m.settleMode (m.session.applyEvent .modeToggle)
  | .history => m.writeHistory
  | .clearHistory => { m with session := m.session.clearHistory }
  | .undo => m.settleMove m.session.undo?
  | .redo => m.settleMove m.session.redo?
  | .quit => { m.log (.quitRequested m.steps) with isShutDown := true }

def entry (m : Machine) : String :=
  String.ofList m.session.editor.buffer.chars

def step (m : Machine) (input : Input) : Machine :=
  let m := { m with steps := m.steps + 1 }
  match input with
  | .key key => m.settle m.entry (m.session.applyKey key)
  | .press label =>
    match m.session.press? label with
    | some result => m.settle m.entry result
    | none => m.log (.unknownButton label)
  | .command command => m.execute command

/-- Processes inputs for as long as steps may be made. -/
def feed (m : Machine) : List Input → Machine
  | [] => m
  | input :: rest => if m.canStep then (m.step input).feed rest else m

/-! ## Runs -/

/-- Processes the inputs of a script and shows what is left to show. -/
def run (m : Machine) (inputs : List Input) : Machine :=
  (m.feed inputs).flush

/-- Answers a line of a dialogue that cannot be read. -/
def complain (m : Machine) (cause : ScriptError) : Machine :=
  (m.log (.ignoredLine cause)).write (.complaint cause)

/-- Processes a line of a dialogue. The second component says whether the dialogue goes on. -/
def takeLine (m : Machine) (number : Nat) (line : List Char) : Machine × Bool :=
  match Input.ofLine number line with
  | .error cause => (m.complain cause, true)
  | .ok inputs =>
    let m := m.run inputs
    (m, m.canStep)

/-- Processes the lines of a dialogue that are counted from a number on. A line that is no text
ends it with an error. -/
def takeLines (m : Machine) (number : Nat) : List Text.Scanned → Machine × Option Error
  | [] => (m, none)
  | line :: rest =>
    match line.toText? with
    | none => (m, some (.io .notText))
    | some text =>
      match m.takeLine number text with
      | (m, true) => m.takeLines (number + 1) rest
      | (m, false) => (m, none)

/-- Holds a dialogue. It starts with a frame. -/
def interact (m : Machine) (input : Text.Scanned) : Machine × Option Error :=
  m.render.takeLines 1 (Text.scannedLines input)

end Machine

end PocketCalculator.Host
