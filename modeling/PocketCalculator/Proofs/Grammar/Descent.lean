import PocketCalculator.Expr.Reading
import Mathlib.Logic.Relation

/-!
# Reading by descent

The readers once more, as routines that call each other and share a state: how many tokens are read,
and how many levels are open. What a routine does is data, with a place for the outcome of each of
its calls (`Steps`). So it can be followed with answers to them (`Steps.follow`), and its calls can be
told from what comes of it (`Steps.Makes`). `Steps.Meets` is what there is to show of a routine for
both. A difference below zero and a loop that does not end have no outcome at all.
-/

namespace PocketCalculator.Descent

/-! ## Calls and steps -/

inductive Routine where
  | sum
  | product
  | power
  | signed
  | percentage
  | primary
  /-- A sum and the token that closes it. -/
  | group (close : Token)

/-- How many tokens are read and how many levels are open. -/
structure State where
  position : Nat
  depth : Nat

structure Call extends State where
  routine : Routine

structure Outcome (α : Type) extends State where
  result : Except EvalError α

/-- What is done up to the first call, and after it whatever its outcome is. -/
inductive Steps (α : Type) where
  | done (outcome : Outcome α)
  /-- A difference would be below zero, or a loop has taken more turns than there are tokens. -/
  | stuck
  | call (call : Call) (resume : Outcome Expr → Steps α)

namespace Steps

variable {α β : Type}

def andThen : Steps α → (Outcome α → Steps β) → Steps β
  | done outcome, next => next outcome
  | stuck, _ => stuck
  | call c resume, next => call c fun outcome => (resume outcome).andThen next

/-- The outcome of the steps, if there is an answer to each call that they make. -/
def follow (answer : Call → Option (Outcome Expr)) : Steps α → Option (Outcome α)
  | done outcome => some outcome
  | stuck => none
  | call c resume => (answer c).bind fun outcome => (resume outcome).follow answer

/-- A call that the steps make if the calls before it have these outcomes. -/
inductive Makes (returns : Call → Outcome Expr → Prop) : Steps α → Call → Prop where
  | now {c : Call} {resume : Outcome Expr → Steps α} : Makes returns (call c resume) c
  | later {c c' : Call} {resume : Outcome Expr → Steps α} {outcome : Outcome Expr}
    (answered : returns c outcome) (makes : Makes returns (resume outcome) c') :
    Makes returns (call c resume) c'

/-- The steps make allowed calls only, and if all of these end as expected, so do the steps. -/
def Meets (allowed : Call → Prop) (expected : Call → Outcome Expr → Prop)
    (wanted : Outcome α → Prop) : Steps α → Prop
  | done outcome => wanted outcome
  | stuck => False
  | call c resume =>
    allowed c ∧ ∀ outcome, expected c outcome → (resume outcome).Meets allowed expected wanted

section Meets

variable {allowed : Call → Prop} {expected : Call → Outcome Expr → Prop}
  {wanted wanted' : Outcome α → Prop} {steps : Steps α}

theorem Meets.mono (h : steps.Meets allowed expected wanted)
    (himp : ∀ outcome, wanted outcome → wanted' outcome) :
    steps.Meets allowed expected wanted' := by
  induction steps with
  | done outcome => exact himp outcome h
  | stuck => exact h
  | call c resume ih => exact ⟨h.1, fun outcome ho => ih outcome (h.2 outcome ho)⟩

theorem Meets.andThen {next : Outcome α → Steps β} {wanted : Outcome β → Prop}
    (h : steps.Meets allowed expected fun outcome => (next outcome).Meets allowed expected wanted) :
    (steps.andThen next).Meets allowed expected wanted := by
  induction steps with
  | done outcome => exact h
  | stuck => exact h
  | call c resume ih => exact ⟨h.1, fun outcome ho => ih outcome (h.2 outcome ho)⟩

/-- With answers as expected the steps come to an end. -/
theorem Meets.exists_follow {answer : Call → Option (Outcome Expr)}
    (h : steps.Meets allowed expected wanted)
    (hanswer : ∀ c, allowed c → ∃ outcome, answer c = some outcome ∧ expected c outcome) :
    ∃ outcome, steps.follow answer = some outcome ∧ wanted outcome := by
  induction steps with
  | done outcome => exact ⟨outcome, rfl, h⟩
  | stuck => exact h.elim
  | call c resume ih =>
    obtain ⟨outcome, ho, hexpected⟩ := hanswer c h.1
    rw [follow, ho]
    exact ih outcome (h.2 outcome hexpected)

/-- Where they come to an end, it is a wanted one. -/
theorem Meets.of_follow {answer : Call → Option (Outcome Expr)} {outcome : Outcome α}
    (h : steps.Meets allowed expected wanted)
    (hanswer : ∀ c outcome, allowed c → answer c = some outcome → expected c outcome)
    (hfollow : steps.follow answer = some outcome) : wanted outcome := by
  induction steps with
  | done outcome =>
    cases hfollow
    exact h
  | stuck => exact h.elim
  | call c resume ih =>
    obtain ⟨answered, ho, hresume⟩ := Option.bind_eq_some_iff.mp hfollow
    exact ih answered (h.2 answered (hanswer c answered h.1 ho)) hresume

/-- No call is made that is not allowed. -/
theorem Meets.allowed_of_makes {returns : Call → Outcome Expr → Prop} {c : Call}
    (h : steps.Meets allowed expected wanted)
    (hreturns : ∀ c outcome, allowed c → returns c outcome → expected c outcome)
    (hmakes : steps.Makes returns c) : allowed c := by
  induction hmakes with
  | now => exact h.1
  | later answered _ ih => exact ih (h.2 _ (hreturns _ _ h.1 answered))

end Meets

end Steps

/-! ## Procedures -/

/-- Steps from any state. -/
structure Procedure (α : Type) where
  steps : State → Steps α

section Procedures

variable {α β σ : Type}

/-- Goes on with a value. An error ends the procedure where it is. -/
def goOn (next : α → Procedure β) (outcome : Outcome α) : Steps β :=
  match outcome.result with
  | .ok a => (next a).steps outcome.toState
  | .error cause => .done ⟨outcome.toState, .error cause⟩

instance : Monad Procedure where
  pure a := ⟨fun s => .done ⟨s, .ok a⟩⟩
  bind x next := ⟨fun s => (x.steps s).andThen (goOn next)⟩

def fail (cause : EvalError) : Procedure α :=
  ⟨fun s => .done ⟨s, .error cause⟩⟩

/-- The result of a procedure, which may be an error. -/
def attempt (x : Procedure α) : Procedure (Except EvalError α) :=
  ⟨fun s => (x.steps s).andThen fun outcome => .done ⟨outcome.toState, .ok outcome.result⟩⟩

def settle : Except EvalError α → Procedure α
  | .ok a => pure a
  | .error cause => fail cause

/-- Takes turns until one has nothing to go on with. -/
def loop (turn : σ → Procedure (Option σ)) : Nat → σ → Procedure σ
  | 0, _ => ⟨fun _ => .stuck⟩
  | turns + 1, a => do
    match ← turn a with
    | none => pure a
    | some b => loop turn turns b

/-- Opens a level. The counter goes up also where no level is left. -/
def enter : Procedure Unit where
  steps s :=
    let inner : State := { s with depth := s.depth + 1 }
    if Expr.maxLevels < inner.depth then .done ⟨inner, .error .tooDeep⟩ else .done ⟨inner, .ok ()⟩

def leave : Procedure Unit where
  steps s := if 0 < s.depth then .done ⟨{ s with depth := s.depth - 1 }, .ok ()⟩ else .stuck

def ask (routine : Routine) : Procedure Expr where
  steps s := .call ⟨s, routine⟩ .done

/-- Calls a routine on a level of its own, which is left whatever comes of the call. -/
def askInside (routine : Routine) : Procedure Expr := do
  enter
  let result ← attempt (ask routine)
  leave
  settle result

end Procedures

/-! ## The routines -/

section Routines

variable (tokens : List Token)

def peek : Procedure (Option Token) where
  steps s := .done ⟨s, .ok tokens[s.position]?⟩

def advance : Procedure Unit where
  steps s := .done ⟨{ s with position := s.position + 1 }, .ok ()⟩

/-- The next token, which is then read. -/
def next : Procedure (Option Token) := do
  match ← peek tokens with
  | none => pure none
  | some token =>
    advance
    pure (some token)

/-- After an operator: the expression must go on. -/
def expectOperand : Procedure Unit := do
  match ← peek tokens with
  | none | some .rightParen => fail .trailingOperator
  | some _ => pure ()

/-- One more link of a chain, if there is one. -/
def link (operator? : Token → Option Operator) (operand : Routine)
    (links : List (Operator × Expr)) : Procedure (Option (List (Operator × Expr))) := do
  match (← peek tokens).bind operator? with
  | none => pure none
  | some operator =>
    advance
    expectOperand tokens
    let e ← ask operand
    pure (some (links ++ [(operator, e)]))

def chain (operator? : Token → Option Operator) (operand : Routine) : Procedure Expr := do
  let first ← ask operand
  let links ← loop (link tokens operator? operand) (tokens.length + 1) []
  pure (first.chained links)

def power : Procedure Expr := do
  let base ← ask .signed
  if (← peek tokens) = some .caret then
    advance
    expectOperand tokens
    let exponent ← askInside .power
    pure (.pow base exponent)
  else pure base

/-- What follows a sign that is seen. -/
def behindSign : Procedure Expr := do
  advance
  expectOperand tokens
  askInside .signed

def signed : Procedure Expr := do
  match ← peek tokens with
  | some .minus => do
    let e ← behindSign tokens
    pure (.neg e)
  | some .plus => behindSign tokens
  | _ => ask .percentage

/-- One more percent sign, if there is one. -/
def percentSign (count : Nat) : Procedure (Option Nat) := do
  if (← peek tokens) = some .percent then
    advance
    pure (some (count + 1))
  else pure none

def percentage : Procedure Expr := do
  let e ← ask .primary
  let count ← loop (percentSign tokens) (tokens.length + 1) 0
  pure (e.percentage count)

/-- The argument in brackets of a function whose name is read. -/
def argument (function : MathFunction) : Procedure Expr := do
  if (← next tokens) = some .leftParen then
    if (← peek tokens) = some .rightParen then fail (.malformedArgument function.name)
    else do
      let e ← ask (.group .rightParen)
      pure (.call function e)
  else fail (.malformedArgument function.name)

/-- What follows a root sign that is read. -/
def radicand : Procedure Expr := do
  match ← peek tokens with
  | none => fail (.malformedArgument MathFunction.sqrt.name)
  | some .leftParen => argument tokens .sqrt
  | some _ => do
    let e ← askInside .percentage
    pure (.call .sqrt e)

def primary : Procedure Expr := do
  match ← next tokens with
  | none => fail .trailingOperator
  | some (.number value) => pure (.number value)
  | some (.constant name) => pure (.number name.value)
  | some .leftParen =>
    if (← peek tokens) = some .rightParen then fail (.unexpectedToken Token.rightParen.text)
    else ask (.group .rightParen)
  | some .bar => do
    let e ← ask (.group .bar)
    pure (.call .abs e)
  | some (.function .sqrt) => radicand tokens
  | some (.function name) => argument tokens name
  | some token => fail (.unexpectedToken token.text)

def group (close : Token) : Procedure Expr := do
  if (← peek tokens) = none then fail .unbalanced
  else do
    let e ← askInside .sum
    match ← next tokens with
    | none => fail .unbalanced
    | some token => if token = close then pure e else fail (.unexpectedToken token.text)

def Routine.body : Routine → Procedure Expr
  | .sum => chain tokens Expr.additive? .product
  | .product => chain tokens Expr.multiplicative? .power
  | .power => Descent.power tokens
  | .signed => Descent.signed tokens
  | .percentage => Descent.percentage tokens
  | .primary => Descent.primary tokens
  | .group close => Descent.group tokens close

/-- All the tokens as one expression. -/
def expression : Procedure Expr := do
  if tokens = [] then fail .noOperand
  else do
    let e ← ask .sum
    match ← next tokens with
    | none => pure e
    | some .rightParen => fail .unbalanced
    | some token => fail (.unexpectedToken token.text)

/-! ## Runs -/

/-- The steps that a call stands for. -/
def Call.steps (c : Call) : Steps Expr :=
  (c.routine.body tokens).steps c.toState

/-- The outcome of a call that makes calls inside each other at most `nesting` deep, itself
included. -/
def run : Nat → Call → Option (Outcome Expr)
  | 0, _ => none
  | nesting + 1, c => (c.steps tokens).follow (run nesting)

def Returns (c : Call) (outcome : Outcome Expr) : Prop :=
  ∃ nesting, run tokens nesting c = some outcome

/-- The one call makes the other while it runs. -/
def Calls (c c' : Call) : Prop :=
  (c.steps tokens).Makes (Returns tokens) c'

theorem Calls.now {tokens : List Token} {c c' : Call} {resume : Outcome Expr → Steps Expr}
    (h : c.steps tokens = .call c' resume) : Calls tokens c c' := by
  rw [Calls, h]
  exact .now

def start : State :=
  ⟨0, 0⟩

/-- A call that is made, directly or not, when all the tokens are read. -/
def Started (c : Call) : Prop :=
  ∃ first, ((expression tokens).steps start).Makes (Returns tokens) first ∧
    Relation.ReflTransGen (Calls tokens) first c

/-- What is read with calls at most `nesting` deep. -/
def read (nesting : Nat) : Option (Except EvalError Expr) :=
  (((expression tokens).steps start).follow (run tokens nesting)).map Outcome.result

end Routines

end PocketCalculator.Descent
