import PocketCalculator.Keypad.Event

/-!
# Modes and layouts

A calculator is in one of two modes, and its layout says which labels each mode shows. Digits,
operators, the point, percent, clearing, deleting and moving are on the shared part of the keypad
and work in every mode; a constant, a function key, the bracket key and the sign key work only
where the mode shows their label.
-/

namespace PocketCalculator

inductive Mode where
  | basic
  | scientific
  deriving DecidableEq, Repr

namespace Mode

def name : Mode → String
  | basic => "BASIC"
  | scientific => "SCIENTIFIC"

def toggled : Mode → Mode
  | basic => scientific
  | scientific => basic

/-- The mode with a name, in any ASCII case and with blanks around it. -/
def ofName? (name : String) : Option Mode :=
  match String.ofList ((Text.trim name.toList).map Char.toLower) with
  | "basic" => some basic
  | "scientific" | "sci" => some scientific
  | _ => none

end Mode

structure Layout where
  name : String
  basic : List String
  scientific : List String
  deriving DecidableEq, Repr

namespace Layout

def classic : Layout where
  name := "classic"
  basic := ["C", "()", "%", "÷", "7", "8", "9", "×", "4", "5", "6", "−", "1", "2", "3", "+",
    "+/−", "0", ".", "="]
  scientific := ["sin", "cos", "tan", "ln", "log", "√", "π", "e", "x²", "xʸ", "1/x", "|x|"]

/-- A keyboard, on which brackets, the sign and the constants can be typed in either mode. -/
def keyboard : Layout where
  name := "keyboard"
  basic := classic.basic ++ ["π", "e"]
  scientific := classic.scientific ++ ["()", "+/−"]

/-- The layouts that can be chosen by name. -/
def all : List Layout :=
  [classic, keyboard]

/-- Whether two texts are the same but for the case of ASCII letters. -/
def sameLetters (a b : List Char) : Bool :=
  a.map Char.toLower == b.map Char.toLower

/-- The layout with a name, in any ASCII case and with blanks around it. -/
def ofName? (name : String) : Option Layout :=
  all.find? fun layout => sameLetters layout.name.toList (Text.trim name.toList)

def labels (layout : Layout) : Mode → List String
  | .basic => layout.basic
  | .scientific => layout.scientific

def shows (layout : Layout) (mode : Mode) (label : String) : Bool :=
  (layout.labels mode).contains label

def bracketLabel : String :=
  "()"

/-- The label of the sign key, which shows a minus sign. -/
def signLabel : String :=
  "+/−"

/-- Whether an event can be entered in a mode. -/
def accepts (layout : Layout) (mode : Mode) : Event → Bool
  | .digit c =>
    match Constant.ofSymbol? c with
    | some constant => layout.shows mode constant.symbol.toString
    | none => c.isDigit
  | .function key => layout.shows mode key.label
  | .bracket => layout.shows mode bracketLabel
  | .signToggle => layout.shows mode signLabel
  | _ => true

end Layout

end PocketCalculator
