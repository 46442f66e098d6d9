import PocketCalculator.Expr.Reading
import PocketCalculator.Glyph
import PocketCalculator.Token.Scan

/-!
# Evaluating a text

A text is brought into ASCII spelling, cut into tokens, read as an expression and evaluated. One
text has a fixed answer instead of a value.
-/

namespace PocketCalculator

inductive Evaluation where
  | number (value : Float)
  /-- A fixed text in place of a number. -/
  | literal (text : String)
  | error (cause : EvalError)
  deriving DecidableEq

namespace Evaluation

/-- The text that is answered with a message. -/
def secretText : List Char :=
  "8977".toList

def secretMessage : String :=
  "You found the secret!"

def isSuccess : Evaluation → Bool
  | error _ => false
  | _ => true

def value? : Evaluation → Option Float
  | number value => some value
  | _ => none

def error? : Evaluation → Option EvalError
  | error cause => some cause
  | _ => none

/-- The text for the display. All errors look the same. -/
def display : Evaluation → String
  | number value => String.ofList (Numeral.display value)
  | literal text => text
  | error _ => EvalError.displayText

/-- A character that belongs to a number or a constant. -/
def isOperandChar (c : Char) : Bool :=
  c.isDigit || c == 'π' || c == 'e'

/-- The value of a text in ASCII spelling. -/
def valueOf (text : List Char) : Except EvalError Float := do
  let tokens ← Token.tokens text
  let e ← Expr.ofTokens tokens
  e.eval

def ofExcept : Except EvalError Float → Evaluation
  | .ok value => number value
  | .error cause => error cause

/-- The evaluation of a text. One without any number or constant is refused before it is read. -/
def ofText (text : List Char) : Evaluation :=
  if text = secretText then literal secretMessage
  else
    let canonical := Glyph.canonicalText text
    if canonical.any isOperandChar then ofExcept (valueOf canonical) else error .noOperand

end Evaluation

end PocketCalculator
