import PocketCalculator.Decimal

/-!
# Functions and constants

The functions that an expression can call and the constants that it can name. A constant is given
by its decimal, from which both its value and the text that a key inserts are taken.
-/

namespace PocketCalculator

inductive MathFunction where
  | sin
  | cos
  | tan
  /-- The natural logarithm. -/
  | ln
  /-- The logarithm to base ten. -/
  | log
  | sqrt
  /-- The absolute value, written between bars. -/
  | abs
  deriving DecidableEq, Repr

namespace MathFunction

/-- The name under which the function is shown. -/
def name : MathFunction → String
  | sin => "sin"
  | cos => "cos"
  | tan => "tan"
  | ln => "ln"
  | log => "log"
  | sqrt => "√"
  | abs => "|x|"

/-- The value of the function, angles in radians. Outside its domain it is `NaN` or infinite. -/
def apply : MathFunction → Float → Float
  | sin, x => x.sin
  | cos, x => x.cos
  | tan, x => x.tan
  | ln, x => x.log
  | log, x => x.log10
  | sqrt, x => x.sqrt
  | abs, x => x.abs

end MathFunction

inductive Constant where
  | pi
  | e
  deriving DecidableEq, Repr

namespace Constant

def symbol : Constant → Char
  | pi => 'π'
  | e => 'e'

def ofSymbol? : Char → Option Constant
  | 'π' => some pi
  | 'e' => some e
  | _ => none

/-- The constant to sixteen digits, which is as close as a float comes to it. -/
def decimal : Constant → Decimal
  | pi => ⟨3141592653589793, 15⟩
  | e => ⟨2718281828459045, 15⟩

def value (c : Constant) : Float :=
  c.decimal.toFloat

/-- The text that the key of the constant inserts. -/
def expanded (c : Constant) : List Char :=
  c.decimal.text

theorem ofSymbol?_eq_some_iff {c : Char} {k : Constant} :
    ofSymbol? c = some k ↔ c = k.symbol := by
  constructor
  · intro h
    unfold ofSymbol? at h
    split at h <;> simp_all [symbol] <;> subst h <;> rfl
  · rintro rfl
    cases k <;> rfl

end Constant

end PocketCalculator
