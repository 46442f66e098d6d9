/-!
# Function keys

The scientific keys that take the whole entry as their argument.
-/

namespace PocketCalculator

inductive FunctionKey where
  | sin
  | cos
  | tan
  | ln
  | log
  | sqrt
  | reciprocal
  | abs
  | square
  /-- Leaves the exponent to be keyed in. -/
  | power
  deriving DecidableEq, Repr

namespace FunctionKey

/-- All function keys, in the order of the keypad. -/
def all : List FunctionKey :=
  [sin, cos, tan, ln, log, sqrt, reciprocal, abs, square, power]

def label : FunctionKey → String
  | sin => "sin"
  | cos => "cos"
  | tan => "tan"
  | ln => "ln"
  | log => "log"
  | sqrt => "√"
  | reciprocal => "1/x"
  | abs => "|x|"
  | square => "x²"
  | power => "xʸ"

def ofLabel? (label : String) : Option FunctionKey :=
  all.find? (·.label = label)

/-- The entry with the key applied to it. -/
def wrap (key : FunctionKey) (entry : List Char) : List Char :=
  match key with
  | sin | cos | tan | ln | log | sqrt => key.label.toList ++ '(' :: entry ++ [')']
  | reciprocal => "1/(".toList ++ entry ++ [')']
  | abs => '|' :: entry ++ ['|']
  | square => entry ++ "^2".toList
  | power => entry ++ ['^']

/-! ## What a key puts around the entry -/

/-- The text that the key puts before the entry. -/
def opening : FunctionKey → List Char
  | reciprocal => "1/(".toList
  | abs => ['|']
  | square | power => []
  | key => key.label.toList ++ ['(']

/-- The text that the key puts after the entry. -/
def closing : FunctionKey → List Char
  | abs => ['|']
  | square => "^2".toList
  | power => ['^']
  | _ => [')']

theorem wrap_eq (key : FunctionKey) (entry : List Char) :
    key.wrap entry = key.opening ++ entry ++ key.closing := by
  cases key <;> simp [wrap, opening, closing]

theorem ofLabel?_label (key : FunctionKey) : ofLabel? key.label = some key := by
  cases key <;> decide

end FunctionKey

end PocketCalculator
