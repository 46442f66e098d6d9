import PocketCalculator.Expr
import PocketCalculator.Token

/-!
# Reading expressions

Expressions are read from tokens by this grammar, the loosest binding first:

```text
sum        := product (('+' | '-') product)*
product    := power (('*' | '/') power)*
power      := signed ('^' power)?
signed     := ('-' | '+') signed | percentage
percentage := primary '%'*
primary    := number | constant | '(' sum ')' | '|' sum '|'
            | function '(' sum ')' | '√' percentage
```

A sign binds tighter than a power, so `-2^2` is the square of `-2`. The grammar comes back to itself
only where it opens a level: in a group, after a sign, in an exponent and under a bare root sign. So
the readers of one level are given the readers of the level inside it (`Level`), and `level n` are
those with `n` further levels inside. Reading is by recursion on that number, and running out of
levels is an error of its own.
-/

namespace PocketCalculator.Expr

/-- Takes an expression off the front of the tokens. -/
abbrev Reader :=
  List Token → Except EvalError (Expr × List Token)

/-- The readers of one level that the level around it calls. -/
structure Level where
  sum : Reader
  power : Reader
  signed : Reader
  percentage : Reader

/-- How many levels may lie inside each other. -/
def maxLevels : Nat :=
  256

/-- The level inside, if there is one left. -/
def enter : Option Level → Except EvalError Level
  | some level => .ok level
  | none => .error .tooDeep

/-- After an operator: the expression must go on. -/
def expectOperand : List Token → Except EvalError Unit
  | [] | .rightParen :: _ => .error .trailingOperator
  | _ => .ok ()

/-! ## The readers of one level -/

/-- A sum and the token that closes it; the token that opened it is read. -/
def group (inner : Option Level) (close : Token) : Reader
  | [] => .error .unbalanced
  | tokens => do
    let level ← enter inner
    let (e, rest) ← level.sum tokens
    match rest with
    | [] => .error .unbalanced
    | token :: rest =>
      if token = close then .ok (e, rest) else .error (.unexpectedToken token.text)

/-- The argument in brackets of a function whose name is read. -/
def argument (inner : Option Level) (function : MathFunction) : Reader
  | .leftParen :: .rightParen :: _ => .error (.malformedArgument function.name)
  | .leftParen :: tokens => do
    let (e, rest) ← group inner .rightParen tokens
    .ok (.call function e, rest)
  | _ => .error (.malformedArgument function.name)

/-- What follows a root sign: an argument in brackets, or a percentage without any. -/
def radicand (inner : Option Level) : Reader
  | [] => .error (.malformedArgument MathFunction.sqrt.name)
  | .leftParen :: tokens => argument inner .sqrt (.leftParen :: tokens)
  | tokens => do
    let level ← enter inner
    let (e, rest) ← level.percentage tokens
    .ok (.call .sqrt e, rest)

/-- An operand without signs, powers and percent signs. -/
def primary (inner : Option Level) : Reader
  | [] => .error .trailingOperator
  | .number value :: rest => .ok (.number value, rest)
  | .constant name :: rest => .ok (.number name.value, rest)
  | .leftParen :: .rightParen :: _ => .error (.unexpectedToken Token.rightParen.text)
  | .leftParen :: tokens => group inner .rightParen tokens
  | .bar :: tokens => do
    let (e, rest) ← group inner .bar tokens
    .ok (.call .abs e, rest)
  | .function .sqrt :: tokens => radicand inner tokens
  | .function name :: tokens => argument inner name tokens
  | token :: _ => .error (.unexpectedToken token.text)

/-- An operand and the percent signs after it. -/
def percentageReader (inner : Option Level) : Reader := fun tokens => do
  let (e, rest) ← primary inner tokens
  .ok (e.percentage (rest.takeWhile (· = .percent)).length, rest.dropWhile (· = .percent))

/-- An operand and the signs before it. A plus leaves no trace. -/
def signed (inner : Option Level) : Reader
  | .minus :: tokens => do
    expectOperand tokens
    let level ← enter inner
    let (e, rest) ← level.signed tokens
    .ok (.neg e, rest)
  | .plus :: tokens => do
    expectOperand tokens
    let level ← enter inner
    level.signed tokens
  | tokens => percentageReader inner tokens

/-- A base and its exponent, if it has one. Powers associate to the right. -/
def power (inner : Option Level) : Reader := fun tokens => do
  let (base, rest) ← signed inner tokens
  match rest with
  | .caret :: tokens =>
    expectOperand tokens
    let level ← enter inner
    let (exponent, rest) ← level.power tokens
    .ok (.pow base exponent, rest)
  | rest => .ok (base, rest)

def additive? : Token → Option Operator
  | .plus => some .add
  | .minus => some .sub
  | _ => none

def multiplicative? : Token → Option Operator
  | .star => some .mul
  | .slash => some .div
  | _ => none

/-- The further links of a chain, at most as many as `budget` has members. Those already read are
in `links`, the newest first. -/
def readLinks (operator? : Token → Option Operator) (operand : Reader)
    (links : List (Operator × Expr)) :
    List Token → List Token → Except EvalError (List (Operator × Expr) × List Token)
  | _ :: budget, token :: tokens =>
    match operator? token with
    | none => .ok (links.reverse, token :: tokens)
    | some op => do
      expectOperand tokens
      -- The rest is shorter by the operator at least, so a budget that was enough still is.
      let (e, rest) ← operand tokens
      readLinks operator? operand ((op, e) :: links) budget rest
  | _, tokens => .ok (links.reverse, tokens)

/-- A chain of operands. Each link takes a token at least, so the tokens themselves are budget
enough. -/
def readChain (operator? : Token → Option Operator) (operand : Reader) : Reader := fun tokens => do
  let (first, rest) ← operand tokens
  let (links, rest) ← readLinks operator? operand [] rest rest
  .ok (first.chained links, rest)

def product (inner : Option Level) : Reader :=
  readChain multiplicative? (power inner)

def sum (inner : Option Level) : Reader :=
  readChain additive? (product inner)

/-! ## All levels -/

def Level.around (inner : Option Level) : Level :=
  ⟨Expr.sum inner, Expr.power inner, Expr.signed inner, Expr.percentageReader inner⟩

def level : Nat → Level
  | 0 => .around none
  | n + 1 => .around (some (level n))

/-- The expression that a list of tokens is. -/
def ofTokens : List Token → Except EvalError Expr
  | [] => .error .noOperand
  | tokens => do
    let (e, rest) ← (level maxLevels).sum tokens
    match rest with
    | [] => .ok e
    | .rightParen :: _ => .error .unbalanced
    | token :: _ => .error (.unexpectedToken token.text)

end PocketCalculator.Expr
