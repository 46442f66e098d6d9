import PocketCalculator.EvalError
import PocketCalculator.MathFunction

/-!
# Expressions

The trees that expressions are read into, and their values. A sum or a product is one flat chain
however long it is, so only groups, signs, roots and powers make a tree deeper. Evaluation is
strict: every result on the way has to be finite.
-/

namespace PocketCalculator

inductive Operator where
  | add
  | sub
  | mul
  | div
  | pow
  deriving DecidableEq, Repr

/-- A value that may stand as a result. -/
def finite (v : Float) : Except EvalError Float :=
  if v.isFinite then .ok v else .error .notFinite

/-- The value of one operation. Division by either zero has none. -/
def Operator.apply (op : Operator) (l r : Float) : Except EvalError Float :=
  match op with
  | add => finite (l + r)
  | sub => finite (l - r)
  | mul => finite (l * r)
  | div => if r == 0.0 then .error .notFinite else finite (l / r)
  | pow => finite (l.pow r)

inductive Expr where
  | number (value : Float)
  | neg (operand : Expr)
  /-- A percentage taken `count` times: the operand divided by a hundred as often. -/
  | percent (operand : Expr) (count : Nat)
  /-- Operations of one precedence from left to right. -/
  | chain (first : Expr) (links : List (Operator × Expr))
  | pow (base exponent : Expr)
  | call (function : MathFunction) (argument : Expr)

/-- The value divided by a hundred `count` times. -/
def hundredths (v : Float) : Nat → Float
  | 0 => v
  | count + 1 => hundredths (v / 100.0) count

namespace Expr

mutual

/-- The value of an expression, if all results on the way to it are finite. -/
def eval : Expr → Except EvalError Float
  | number value => finite value
  | neg operand => do finite (-(← eval operand))
  | percent operand count => do finite (hundredths (← eval operand) count)
  | chain first links => do evalLinks (← eval first) links
  | pow base exponent => do
    let b ← eval base
    let e ← eval exponent
    Operator.pow.apply b e
  | call function argument => do finite (function.apply (← eval argument))

/-- Goes on from the value `v` with the operations of a chain. -/
def evalLinks (v : Float) : List (Operator × Expr) → Except EvalError Float
  | [] => .ok v
  | (op, operand) :: links => do
    let r ← eval operand
    let v ← op.apply v r
    evalLinks v links

end

/-- A chain, unless there is nothing to chain. -/
def chained (first : Expr) (links : List (Operator × Expr)) : Expr :=
  if links.isEmpty then first else chain first links

/-- A percentage, unless it is taken no times. -/
def percentage (operand : Expr) (count : Nat) : Expr :=
  if count = 0 then operand else percent operand count

end Expr

end PocketCalculator
