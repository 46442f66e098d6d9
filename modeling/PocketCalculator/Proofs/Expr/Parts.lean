import PocketCalculator.Expr

/-!
# The parts of an expression

An expression is part of another if it is the other or stands somewhere inside it (`IsPart`). What
holds of all parts is said by `Throughout`, which has one equation for each kind of expression.
`induction` is the induction in which all operands of a chain are known at once.
-/

namespace PocketCalculator.Expr

theorem sizeOf_lt_of_mem {links : List (Operator × Expr)} {link : Operator × Expr}
    (h : link ∈ links) : sizeOf link.2 < sizeOf links := by
  refine Nat.lt_trans ?_ (List.sizeOf_lt_of_mem h)
  rcases link with ⟨operator, operand⟩
  show sizeOf operand < _
  rw [Prod.mk.sizeOf_spec]
  omega

/-- **Induction over expressions**, with what is to be shown for each operand of a chain. -/
@[elab_as_elim]
theorem induction {P : Expr → Prop} (number : ∀ value, P (.number value))
    (neg : ∀ operand, P operand → P (.neg operand))
    (percent : ∀ operand count, P operand → P (.percent operand count))
    (chain : ∀ first links, P first → (∀ link ∈ links, P link.2) → P (.chain first links))
    (pow : ∀ base exponent, P base → P exponent → P (.pow base exponent))
    (call : ∀ function argument, P argument → P (.call function argument)) :
    ∀ e, P e
  | .number value => number value
  | .neg operand => neg operand (induction number neg percent chain pow call operand)
  | .percent operand count =>
    percent operand count (induction number neg percent chain pow call operand)
  | .chain first links =>
    chain first links (induction number neg percent chain pow call first) fun link hmem =>
      have := sizeOf_lt_of_mem hmem
      induction number neg percent chain pow call link.2
  | .pow base exponent =>
    pow base exponent (induction number neg percent chain pow call base)
      (induction number neg percent chain pow call exponent)
  | .call function argument =>
    call function argument (induction number neg percent chain pow call argument)
termination_by e => sizeOf e

/-- The one expression is the other or stands somewhere inside it. -/
inductive IsPart (part : Expr) : Expr → Prop where
  | refl : IsPart part part
  | neg {operand : Expr} (h : IsPart part operand) : IsPart part (.neg operand)
  | percent {operand : Expr} {count : Nat} (h : IsPart part operand) :
    IsPart part (.percent operand count)
  | first {first : Expr} {links : List (Operator × Expr)} (h : IsPart part first) :
    IsPart part (.chain first links)
  | link {first : Expr} {links : List (Operator × Expr)} {link : Operator × Expr}
    (mem : link ∈ links) (h : IsPart part link.2) : IsPart part (.chain first links)
  | base {base exponent : Expr} (h : IsPart part base) : IsPart part (.pow base exponent)
  | exponent {base exponent : Expr} (h : IsPart part exponent) : IsPart part (.pow base exponent)
  | argument {function : MathFunction} {argument : Expr} (h : IsPart part argument) :
    IsPart part (.call function argument)

/-- All parts of the expression have the property, the expression itself among them. -/
def Throughout (P : Expr → Prop) (e : Expr) : Prop :=
  ∀ part, IsPart part e → P part

/-! ## One kind of expression after the other -/

section Throughout

variable {P : Expr → Prop}

@[simp] theorem throughout_number {value : Float} :
    Throughout P (.number value) ↔ P (.number value) := by
  constructor
  · intro h
    exact h _ .refl
  · intro h part hpart
    cases hpart with
    | refl => exact h

@[simp] theorem throughout_neg {operand : Expr} :
    Throughout P (.neg operand) ↔ P (.neg operand) ∧ Throughout P operand := by
  constructor
  · intro h
    exact ⟨h _ .refl, fun part hpart => h part (.neg hpart)⟩
  · rintro ⟨hself, hoperand⟩ part hpart
    cases hpart with
    | refl => exact hself
    | neg hpart => exact hoperand part hpart

@[simp] theorem throughout_percent {operand : Expr} {count : Nat} :
    Throughout P (.percent operand count) ↔ P (.percent operand count) ∧ Throughout P operand := by
  constructor
  · intro h
    exact ⟨h _ .refl, fun part hpart => h part (.percent hpart)⟩
  · rintro ⟨hself, hoperand⟩ part hpart
    cases hpart with
    | refl => exact hself
    | percent hpart => exact hoperand part hpart

@[simp] theorem throughout_chain {first : Expr} {links : List (Operator × Expr)} :
    Throughout P (.chain first links) ↔
      P (.chain first links) ∧ Throughout P first ∧ ∀ link ∈ links, Throughout P link.2 := by
  constructor
  · intro h
    exact ⟨h _ .refl, fun part hpart => h part (.first hpart),
      fun link hmem part hpart => h part (.link hmem hpart)⟩
  · rintro ⟨hself, hfirst, hlinks⟩ part hpart
    cases hpart with
    | refl => exact hself
    | first hpart => exact hfirst part hpart
    | link hmem hpart => exact hlinks _ hmem part hpart

@[simp] theorem throughout_pow {base exponent : Expr} :
    Throughout P (.pow base exponent) ↔
      P (.pow base exponent) ∧ Throughout P base ∧ Throughout P exponent := by
  constructor
  · intro h
    exact ⟨h _ .refl, fun part hpart => h part (.base hpart),
      fun part hpart => h part (.exponent hpart)⟩
  · rintro ⟨hself, hbase, hexponent⟩ part hpart
    cases hpart with
    | refl => exact hself
    | base hpart => exact hbase part hpart
    | exponent hpart => exact hexponent part hpart

@[simp] theorem throughout_call {function : MathFunction} {argument : Expr} :
    Throughout P (.call function argument) ↔
      P (.call function argument) ∧ Throughout P argument := by
  constructor
  · intro h
    exact ⟨h _ .refl, fun part hpart => h part (.argument hpart)⟩
  · rintro ⟨hself, hargument⟩ part hpart
    cases hpart with
    | refl => exact hself
    | argument hpart => exact hargument part hpart

end Throughout

end PocketCalculator.Expr
