import PocketCalculator.EvalError
import PocketCalculator.MathFunction
import PocketCalculator.Numeral

/-!
# Tokens

The words of an expression, and how each is shown in an error message.
-/

namespace PocketCalculator

inductive Token where
  | number (value : Float)
  | constant (name : Constant)
  /-- A function by its name, or the root sign. -/
  | function (name : MathFunction)
  | plus
  | minus
  | star
  | slash
  | caret
  | percent
  | leftParen
  | rightParen
  /-- The delimiter of an absolute value; it opens or closes one by its position. -/
  | bar
  deriving DecidableEq

namespace Token

def text : Token → String
  | number value => String.ofList (Numeral.text value)
  | constant name => name.symbol.toString
  | function name => name.name
  | plus => "+"
  | minus => "-"
  | star => "*"
  | slash => "/"
  | caret => "^"
  | percent => "%"
  | leftParen => "("
  | rightParen => ")"
  | bar => "|"

def isOperand : Token → Bool
  | number _ | constant _ => true
  | _ => false

end Token

end PocketCalculator
