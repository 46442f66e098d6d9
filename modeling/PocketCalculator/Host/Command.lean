import PocketCalculator.Keypad.Layout
import PocketCalculator.Text.Lowercase

/-!
# Host commands

What can be asked of the host beside keys. A command is a name in any letter case, for the mode with
an argument; further words are passed over.
-/

namespace PocketCalculator.Host

inductive ModeRequest where
  | set (mode : Mode)
  | toggle
  deriving DecidableEq, Repr

inductive Command where
  | mode (request : ModeRequest)
  | history
  | clearHistory
  | undo
  | redo
  | quit
  deriving DecidableEq, Repr

namespace Command

def text : Command → String
  | mode (.set .basic) => "mode basic"
  | mode (.set .scientific) => "mode scientific"
  | mode .toggle => "mode toggle"
  | history => "history"
  | clearHistory => "clear-history"
  | undo => "undo"
  | redo => "redo"
  | quit => "quit"

inductive Error where
  | empty
  | missingMode
  | invalidMode (name : String)
  | unknown (name : String)
  deriving DecidableEq, Repr

def Error.message : Error → String
  | empty => "Invalid command: Empty command"
  | missingMode => "Missing argument: mode (basic, scientific, toggle)"
  | invalidMode name => "Invalid mode: " ++ name
  | unknown name => "Unknown command: " ++ name

def modeRequest : List (List Char) → Except Error ModeRequest
  | [] => .error .missingMode
  | name :: _ =>
    if Layout.sameLetters name "toggle".toList then .ok .toggle
    else
      match Mode.ofName? (String.ofList name) with
      | some known => .ok (.set known)
      | none => .error (.invalidMode (String.ofList name))

def ofText (text : List Char) : Except Error Command :=
  match Text.words text with
  | [] => .error .empty
  | name :: arguments =>
    match String.ofList (Text.lowercase name) with
    | "mode" => (modeRequest arguments).map mode
    | "history" => .ok history
    | "clear-history" => .ok clearHistory
    | "undo" => .ok undo
    | "redo" => .ok redo
    | "quit" | "exit" => .ok quit
    | name => .error (.unknown name)

end Command

end PocketCalculator.Host
