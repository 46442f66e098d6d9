/-!
# Why an expression has no value

One cause per constructor; the wording is in `EvalError.message` alone. The display shows the same
word for all of them.
-/

namespace PocketCalculator

inductive EvalError where
  /-- It mentions neither a number nor a constant. -/
  | noOperand
  /-- A bracket or bar was not closed, or a bracket was closed that was never opened. -/
  | unbalanced
  /-- An operator has nothing on its right. -/
  | trailingOperator
  /-- A result is infinite or undefined. -/
  | notFinite
  /-- A function lacks its argument. -/
  | malformedArgument (function : String)
  /-- A token that cannot stand where it stands. -/
  | unexpectedToken (token : String)
  /-- A row of letters that names nothing. -/
  | unknownIdentifier (name : String)
  /-- A row of digits and points that is no number. -/
  | invalidNumber (text : String)
  /-- More levels inside each other than are allowed. -/
  | tooDeep
  deriving DecidableEq, Repr

namespace EvalError

def message : EvalError → String
  | noOperand => "Expression contains no number"
  | unbalanced => "Unbalanced parentheses"
  | trailingOperator => "Expression ends with an operator"
  | notFinite => "Result is not a finite number"
  | malformedArgument function => "Malformed argument to " ++ function
  | unexpectedToken token => "Unexpected token: " ++ token
  | unknownIdentifier name => "Unknown identifier: " ++ name
  | invalidNumber text => "Invalid number: " ++ text
  | tooDeep => "Expression nested too deeply"

def displayText : String :=
  "Error"

/-! ## Results of steps -/

/-- A value of two steps is a value of the second for one of the first. -/
theorem bind_eq_ok {α β : Type} {x : Except EvalError α} {f : α → Except EvalError β} {b : β} :
    (x >>= f) = .ok b ↔ ∃ a, x = .ok a ∧ f a = .ok b := by
  cases x with
  | error cause => simp [bind, Except.bind]
  | ok a => simp [bind, Except.bind]

/-- An error of two steps is one of the first or of the second. -/
theorem bind_eq_error {α β : Type} {x : Except EvalError α} {f : α → Except EvalError β}
    {cause : EvalError} :
    (x >>= f) = .error cause ↔ x = .error cause ∨ ∃ a, x = .ok a ∧ f a = .error cause := by
  cases x with
  | error cause => simp [bind, Except.bind]
  | ok a => simp [bind, Except.bind]

end EvalError

end PocketCalculator
