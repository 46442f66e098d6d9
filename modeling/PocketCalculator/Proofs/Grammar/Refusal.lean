import PocketCalculator.Expr.Reading

/-!
# What a reader refuses

The readers complain about the syntax alone: about brackets, an operator without an operand, a
function without its argument, a token in the wrong place, or too many levels (`isSyntax`). No reader
reports what only the step before it or the step after it can find. `RefusesSyntax` is carried
through the steps of a reader by `RefusesSyntax.bind`, and through the levels by induction.
-/

namespace PocketCalculator

/-- A cause that a reader of tokens may report. -/
def EvalError.isSyntax : EvalError → Bool
  | unbalanced | trailingOperator | malformedArgument _ | unexpectedToken _ | tooDeep => true
  | _ => false

namespace Expr

/-- If this result is an error, the syntax is the cause. -/
def RefusesSyntax {α : Type} (result : Except EvalError α) : Prop :=
  ∀ cause, result = .error cause → cause.isSyntax = true

namespace RefusesSyntax

variable {α β : Type}

theorem ok (a : α) : RefusesSyntax (.ok a) :=
  nofun

theorem error {cause : EvalError} (h : cause.isSyntax = true) :
    RefusesSyntax (.error cause : Except EvalError α) := by
  rintro _ ⟨⟩
  exact h

theorem bind {x : Except EvalError α} {f : α → Except EvalError β} (hx : RefusesSyntax x)
    (hf : ∀ a, RefusesSyntax (f a)) : RefusesSyntax (x >>= f) := by
  cases x with
  | ok a => exact hf a
  | error cause =>
    rintro _ ⟨⟩
    exact hx cause rfl

end RefusesSyntax

open RefusesSyntax (bind ok error)

def ReadsSyntax (read : Reader) : Prop :=
  ∀ tokens, RefusesSyntax (read tokens)

structure LevelReadsSyntax (level : Level) : Prop where
  sum : ReadsSyntax level.sum
  power : ReadsSyntax level.power
  signed : ReadsSyntax level.signed
  percentage : ReadsSyntax level.percentage

theorem expectOperand_refuses (tokens : List Token) : RefusesSyntax (expectOperand tokens) := by
  unfold expectOperand
  split
  · exact error rfl
  · exact error rfl
  · exact ok _

section Inside

variable {inside : Option Level} (hinside : ∀ level ∈ inside, LevelReadsSyntax level)

/-- A step into the level inside complains if there is no level left, or if the step does. -/
theorem enter_refuses {β : Type} {f : Level → Except EvalError β}
    (hf : ∀ level ∈ inside, RefusesSyntax (f level)) : RefusesSyntax (enter inside >>= f) := by
  cases inside with
  | none => exact error rfl
  | some level => exact hf level rfl

include hinside

theorem group_refuses (close : Token) : ReadsSyntax (group inside close) := by
  intro tokens
  unfold group
  split
  · exact error rfl
  · refine enter_refuses fun level hl => bind ((hinside level hl).sum _) fun ⟨e, rest⟩ => ?_
    dsimp only
    split
    · exact error rfl
    · split
      · exact ok _
      · exact error rfl

theorem argument_refuses (name : MathFunction) : ReadsSyntax (argument inside name) := by
  intro tokens
  unfold argument
  split
  · exact error rfl
  · exact bind (group_refuses hinside _ _) fun _ => ok _
  · exact error rfl

theorem radicand_refuses : ReadsSyntax (radicand inside) := by
  intro tokens
  unfold radicand
  split
  · exact error rfl
  · exact argument_refuses hinside _ _
  · exact enter_refuses fun level hl => bind ((hinside level hl).percentage _) fun _ => ok _

theorem primary_refuses : ReadsSyntax (primary inside) := by
  intro tokens
  unfold primary
  split
  · exact error rfl
  · exact ok _
  · exact ok _
  · exact error rfl
  · exact group_refuses hinside _ _
  · exact bind (group_refuses hinside _ _) fun _ => ok _
  · exact radicand_refuses hinside _
  · exact argument_refuses hinside _ _
  · exact error rfl

theorem percentageReader_refuses : ReadsSyntax (percentageReader inside) :=
  fun tokens => bind (primary_refuses hinside tokens) fun _ => ok _

theorem signed_refuses : ReadsSyntax (signed inside) := by
  intro tokens
  unfold signed
  split
  · refine bind (expectOperand_refuses _) fun _ => ?_
    exact enter_refuses fun level hl => bind ((hinside level hl).signed _) fun _ => ok _
  · refine bind (expectOperand_refuses _) fun _ => ?_
    exact enter_refuses fun level hl => (hinside level hl).signed _
  · exact percentageReader_refuses hinside _

theorem power_refuses : ReadsSyntax (power inside) := by
  intro tokens
  refine bind (signed_refuses hinside tokens) fun ⟨base, rest⟩ => ?_
  dsimp only
  split
  · refine bind (expectOperand_refuses _) fun _ => ?_
    exact enter_refuses fun level hl => bind ((hinside level hl).power _) fun _ => ok _
  · exact ok _

omit hinside in
theorem readLinks_refuses {operator? : Token → Option Operator} {operand : Reader}
    (hoperand : ReadsSyntax operand) (budget : List Token) :
    ∀ links tokens, RefusesSyntax (readLinks operator? operand links budget tokens) := by
  induction budget with
  | nil =>
    intro links tokens
    rw [readLinks.eq_def]
    exact ok _
  | cons _ budget ih =>
    intro links tokens
    rw [readLinks.eq_def]
    cases tokens with
    | nil => exact ok _
    | cons token tokens =>
      dsimp only
      split
      · exact ok _
      · exact bind (expectOperand_refuses _) fun _ => bind (hoperand _) fun _ => ih _ _

omit hinside in
theorem readChain_refuses {operator? : Token → Option Operator} {operand : Reader}
    (hoperand : ReadsSyntax operand) : ReadsSyntax (readChain operator? operand) :=
  fun tokens => bind (hoperand tokens) fun _ =>
    bind (readLinks_refuses hoperand _ _ _) fun _ => ok _

theorem around_readsSyntax : LevelReadsSyntax (.around inside) where
  sum := readChain_refuses (readChain_refuses (power_refuses hinside))
  power := power_refuses hinside
  signed := signed_refuses hinside
  percentage := percentageReader_refuses hinside

end Inside

theorem level_readsSyntax (levels : Nat) : LevelReadsSyntax (level levels) := by
  induction levels with
  | zero => exact around_readsSyntax nofun
  | succ n ih =>
    refine around_readsSyntax ?_
    rintro _ ⟨⟩
    exact ih

/-- **Only no tokens at all lack an operand**: everything else that is refused is refused for its
syntax. -/
theorem ofTokens_refuses {tokens : List Token} (h : tokens ≠ []) :
    RefusesSyntax (ofTokens tokens) := by
  unfold ofTokens
  split
  · exact absurd rfl h
  · refine bind ((level_readsSyntax _).sum _) fun ⟨e, rest⟩ => ?_
    dsimp only
    split
    · exact ok _
    · exact error rfl
    · exact error rfl

end Expr

end PocketCalculator
