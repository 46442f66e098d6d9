import PocketCalculator.Host.Command
import PocketCalculator.Keypad.Key
import PocketCalculator.Text.Lines

/-!
# Scripts

Inputs are written one to a line: a single character, the name of a key, `press` and the label of a
key, or a colon and a command. Characters between double quotes are so many keys. Blank lines and
lines that start with a hash hold no input. A script is the inputs of its lines, of which there has
to be one at least.
-/

namespace PocketCalculator.Host

inductive Input where
  | key (key : Key)
  /-- A key of the keypad by its label. -/
  | press (label : String)
  | command (command : Command)
  deriving DecidableEq, Repr

inductive LineError where
  | command (cause : Command.Error)
  | unknownButton (label : String)
  | invalidKeyName (name : String)
  deriving DecidableEq, Repr

def LineError.message : LineError → String
  | command cause => cause.message
  | unknownButton label => "Unknown button: " ++ label
  | invalidKeyName name => "Invalid key name: " ++ name

inductive ScriptError where
  /-- A line, counted from one, cannot be read. -/
  | line (number : Nat) (cause : LineError)
  | empty
  deriving DecidableEq, Repr

def ScriptError.message : ScriptError → String
  | line number cause => "Parse error at line " ++ toString number ++ ": " ++ cause.message
  | empty => "Empty script"

namespace Input

/-- The key with a name of several letters, in any letter case. -/
def keyOfName? (name : List Char) : Option Key :=
  match String.ofList (Text.lowercase name) with
  | "enter" | "return" => some .enter
  | "escape" | "esc" => some .escape
  | "backspace" | "back" => some .backspace
  | "delete" | "del" => some .delete
  | "left" | "arrowleft" => some .left
  | "right" | "arrowright" => some .right
  | "home" => some .home
  | "end" => some .toEnd
  | _ => none

/-- The key that a line names: a single character is itself. -/
def keyOfLine (line : List Char) : Except LineError Input :=
  match line with
  | [c] => .ok (key (.char c))
  | name =>
    match keyOfName? name with
    | some k => .ok (key k)
    | none => .error (.invalidKeyName (String.ofList name))

/-- The text after a start that it has. -/
def after? : (start text : List Char) → Option (List Char)
  | [], text => some text
  | c :: start, d :: text => if c = d then after? start text else none
  | _ :: _, [] => none

def quoted? : List Char → Option (List Char)
  | '"' :: rest => if rest.getLast? = some '"' then some rest.dropLast else none
  | _ => none

/-- The press of a key that the keypad has. -/
def pressOf (label : List Char) : Except LineError Input :=
  let label := String.ofList (Text.trim label)
  if (Action.ofLabel? label).isSome then .ok (press label) else .error (.unknownButton label)

/-- The inputs of a line without blanks around it. -/
def ofTrimmed (line : List Char) : Except LineError (List Input) :=
  match line with
  | [] | '#' :: _ => .ok []
  | ':' :: text =>
    match Command.ofText text with
    | .ok c => .ok [command c]
    | .error cause => .error (.command cause)
  | _ =>
    match after? "press ".toList line with
    | some label => (pressOf label).map ([·])
    | none =>
      match quoted? line with
      | some text => .ok (text.map fun c => key (.char c))
      | none => (keyOfLine line).map ([·])

def ofLine (number : Nat) (line : List Char) : Except ScriptError (List Input) :=
  match ofTrimmed (Text.trim line) with
  | .ok inputs => .ok inputs
  | .error cause => .error (.line number cause)

/-- The inputs of lines that are counted from a number on, or the error of the first line that has
one. -/
def ofLines (number : Nat) : List (List Char) → Except ScriptError (List Input)
  | [] => .ok []
  | line :: rest => do
    let inputs ← ofLine number line
    let more ← ofLines (number + 1) rest
    .ok (inputs ++ more)

def ofScript (text : List Char) : Except ScriptError (List Input) := do
  let inputs ← ofLines 1 (Text.lines text)
  if inputs.isEmpty then .error .empty else .ok inputs

end Input

end PocketCalculator.Host
