import PocketCalculator.Proofs.Binary.Range
import PocketCalculator.Proofs.Evaluation.Displayed
import PocketCalculator.Proofs.Expr.Parts

/-!
# Strict evaluation

A chain is worth what the binary tree is worth in which its operations lean to the left
(`value_binary`), although the tree checks the result of every node and takes percentages one at a
time. An expression with a value has nothing inside that lacks one (`parts_of_eval`), so an
infinity cannot cancel out further on.
-/

namespace PocketCalculator

/-- Expressions whose operations have one operand or two. -/
inductive BinaryTree where
  | number (value : Float)
  | neg (operand : BinaryTree)
  | percent (operand : BinaryTree)
  | operation (operator : Operator) (left right : BinaryTree)
  | call (function : MathFunction) (argument : BinaryTree)

namespace BinaryTree

/-- The value of a tree, if the result of each node is finite. -/
def value : BinaryTree → Except EvalError Float
  | number value => finite value
  | neg operand => do finite (-(← value operand))
  | percent operand => do finite ((← value operand) / 100.0)
  | operation operator left right => do
    let l ← value left
    let r ← value right
    operator.apply l r
  | call function argument => do finite (function.apply (← value argument))

/-- The tree with `count` signs of percentage, one after the other. -/
def percents (tree : BinaryTree) : Nat → BinaryTree
  | 0 => tree
  | count + 1 => percents (.percent tree) count

theorem isFinite_of_value {v : Float} : ∀ {tree : BinaryTree}, tree.value = .ok v →
    v.isFinite = true
  | number _, h => by
    rw [value] at h
    exact Expr.isFinite_of_finite h
  | neg _, h => by
    rw [value] at h
    obtain ⟨w, -, h⟩ := EvalError.bind_eq_ok.mp h
    exact Expr.isFinite_of_finite h
  | percent _, h => by
    rw [value] at h
    obtain ⟨w, -, h⟩ := EvalError.bind_eq_ok.mp h
    exact Expr.isFinite_of_finite h
  | operation _ _ _, h => by
    rw [value] at h
    obtain ⟨l, -, h⟩ := EvalError.bind_eq_ok.mp h
    obtain ⟨r, -, h⟩ := EvalError.bind_eq_ok.mp h
    exact Expr.isFinite_of_apply h
  | call _ _, h => by
    rw [value] at h
    obtain ⟨w, -, h⟩ := EvalError.bind_eq_ok.mp h
    exact Expr.isFinite_of_finite h

/-- Percentages need one check for all of them, because a hundredth of something finite is
finite. -/
theorem value_percents (tree : BinaryTree) (count : Nat) :
    (tree.percents count).value = (do finite (hundredths (← tree.value) count)) := by
  induction count generalizing tree with
  | zero =>
    show tree.value = tree.value >>= finite
    cases hvalue : tree.value with
    | error cause => rfl
    | ok v => exact (Evaluation.finite_eq_ok (isFinite_of_value hvalue)).symm
  | succ count ih =>
    rw [percents, ih, value]
    cases hvalue : tree.value with
    | error cause => rfl
    | ok v =>
      have hhundredth := Evaluation.finite_eq_ok (Binary.isFinite_hundredth
        (isFinite_of_value hvalue))
      show (finite (v / 100.0) >>= fun w => finite (hundredths w count)) = _
      rw [hhundredth]
      rfl

end BinaryTree

namespace Expr

mutual

/-- The expression as a binary tree, in which operations of one precedence lean to the left. -/
def binary : Expr → BinaryTree
  | number value => .number value
  | neg operand => .neg (binary operand)
  | percent operand count => (binary operand).percents count
  | chain first links => binaryLinks (binary first) links
  | pow base exponent => .operation .pow (binary base) (binary exponent)
  | call function argument => .call function (binary argument)

/-- The tree `left` with the operations of a chain to the right of it. -/
def binaryLinks (left : BinaryTree) : List (Operator × Expr) → BinaryTree
  | [] => left
  | (operator, operand) :: links => binaryLinks (.operation operator left (binary operand)) links

end

mutual

/-- **A chain is worth what its binary tree is worth.** -/
theorem value_binary : ∀ e : Expr, e.binary.value = e.eval
  | number value => by
    rw [binary, BinaryTree.value, eval]
  | neg operand => by
    rw [binary, BinaryTree.value, eval, value_binary operand]
  | percent operand count => by
    rw [binary, BinaryTree.value_percents, eval, value_binary operand]
  | chain first links => by
    rw [binary, value_binaryLinks, eval, value_binary first]
  | pow base exponent => by
    rw [binary, BinaryTree.value, eval, value_binary base, value_binary exponent]
  | call function argument => by
    rw [binary, BinaryTree.value, eval, value_binary argument]

theorem value_binaryLinks : ∀ (links : List (Operator × Expr)) (left : BinaryTree),
    (binaryLinks left links).value = (do evalLinks (← left.value) links)
  | [], left => by
    rw [binaryLinks]
    exact (bind_pure left.value).symm
  | (operator, operand) :: links, left => by
    rw [binaryLinks, value_binaryLinks, BinaryTree.value, value_binary operand]
    simp only [evalLinks, bind_assoc]

end

/-! ## What a value says about the parts -/

/-- The operands of a chain with a value have values. Each of them could be applied to some value
on the left. -/
theorem links_of_evalLinks {v : Float} {links : List (Operator × Expr)} :
    ∀ {w : Float}, evalLinks w links = .ok v → ∀ link ∈ links,
      ∃ l r u, link.2.eval = .ok r ∧ link.1.apply l r = .ok u := by
  induction links with
  | nil =>
    intro w h link hmem
    cases hmem
  | cons head links ih =>
    intro w h link hmem
    rw [evalLinks] at h
    obtain ⟨r, hr, h⟩ := EvalError.bind_eq_ok.mp h
    obtain ⟨u, hu, h⟩ := EvalError.bind_eq_ok.mp h
    rcases List.mem_cons.mp hmem with rfl | hmem
    · exact ⟨w, r, u, hr, hu⟩
    · exact ih h link hmem

theorem divisor_of_apply {l r u : Float} (h : Operator.div.apply l r = .ok u) :
    (r == 0.0) = false := by
  rw [Operator.apply] at h
  split at h
  · cases h
  · next hr => exact Bool.eq_false_iff.mpr hr

/-- The expression has a finite value. If it is a chain, no divisor in it is worth zero. -/
structure IsSound (e : Expr) : Prop where
  value : ∃ v, e.eval = .ok v ∧ v.isFinite = true
  divisors : ∀ first links, e = .chain first links → ∀ divisor, (Operator.div, divisor) ∈ links →
    ∃ w, divisor.eval = .ok w ∧ (w == 0.0) = false

theorem isSound_of_eval {e : Expr} {v : Float} (h : e.eval = .ok v) : e.IsSound where
  value := ⟨v, h, isFinite_of_eval h⟩
  divisors := by
    rintro first links rfl divisor hmem
    rw [eval] at h
    obtain ⟨w, -, h⟩ := EvalError.bind_eq_ok.mp h
    obtain ⟨l, r, u, hr, hu⟩ := links_of_evalLinks h _ hmem
    exact ⟨r, hr, divisor_of_apply hu⟩

/-- **A value needs values of all parts.** -/
theorem parts_of_eval {e : Expr} : ∀ {v : Float}, e.eval = .ok v → Throughout IsSound e := by
  induction e using induction with
  | number value =>
    intro v h
    exact throughout_number.mpr (isSound_of_eval h)
  | neg operand ih =>
    intro v h
    have hself := isSound_of_eval h
    rw [eval] at h
    obtain ⟨w, hw, -⟩ := EvalError.bind_eq_ok.mp h
    exact throughout_neg.mpr ⟨hself, ih hw⟩
  | percent operand count ih =>
    intro v h
    have hself := isSound_of_eval h
    rw [eval] at h
    obtain ⟨w, hw, -⟩ := EvalError.bind_eq_ok.mp h
    exact throughout_percent.mpr ⟨hself, ih hw⟩
  | chain first links ihfirst ihlinks =>
    intro v h
    have hself := isSound_of_eval h
    rw [eval] at h
    obtain ⟨w, hw, h⟩ := EvalError.bind_eq_ok.mp h
    refine throughout_chain.mpr ⟨hself, ihfirst hw, fun link hmem => ?_⟩
    obtain ⟨l, r, u, hr, -⟩ := links_of_evalLinks h link hmem
    exact ihlinks link hmem hr
  | pow base exponent ihbase ihexponent =>
    intro v h
    have hself := isSound_of_eval h
    rw [eval] at h
    obtain ⟨b, hb, h⟩ := EvalError.bind_eq_ok.mp h
    obtain ⟨x, hx, -⟩ := EvalError.bind_eq_ok.mp h
    exact throughout_pow.mpr ⟨hself, ihbase hb, ihexponent hx⟩
  | call function argument ih =>
    intro v h
    have hself := isSound_of_eval h
    rw [eval] at h
    obtain ⟨w, hw, -⟩ := EvalError.bind_eq_ok.mp h
    exact throughout_call.mpr ⟨hself, ih hw⟩

theorem eval_eq_error {e : Expr} (h : ¬ ∃ v, e.eval = .ok v) : e.eval = .error .notFinite := by
  cases heval : e.eval with
  | ok v => exact absurd ⟨v, heval⟩ h
  | error cause => rw [eval_error heval]

/-- What it says that an expression is worth `v`. -/
structure HasValue (e : Expr) (v : Float) : Prop where
  isFinite : v.isFinite = true
  /-- The checks of the binary tree find nothing else. -/
  binary : e.binary.value = .ok v
  parts : Throughout IsSound e

theorem hasValue_of_eval {e : Expr} {v : Float} (h : e.eval = .ok v) : e.HasValue v where
  isFinite := isFinite_of_eval h
  binary := by rw [value_binary, h]
  parts := parts_of_eval h

end Expr

namespace Evaluation

/-- The number that a text is answered with is the value of the expression that it is read as. -/
theorem exists_expr_of_number {text : List Char} {v : Float} (h : ofText text = .number v) :
    ∃ tokens e, Token.tokens (Glyph.canonicalText text) = .ok tokens ∧
      Expr.ofTokens tokens = .ok e ∧ e.eval = .ok v := by
  unfold ofText at h
  split at h
  · cases h
  · dsimp only at h
    split at h
    · cases hvalue : valueOf (Glyph.canonicalText text) with
      | error cause =>
        rw [hvalue] at h
        cases h
      | ok w =>
        rw [hvalue] at h
        obtain rfl := Evaluation.number.inj h
        obtain ⟨tokens, htokens, hvalue⟩ := EvalError.bind_eq_ok.mp hvalue
        obtain ⟨e, he, hvalue⟩ := EvalError.bind_eq_ok.mp hvalue
        exact ⟨tokens, e, htokens, he, hvalue⟩
    · cases h

/-- **Evaluation is strict.** A value is finite, it is that of the binary tree, and all parts of the
expression have values too. An expression without a value fails for the one reason, and so does its
binary tree. A part that fails is not made up for by the rest. A number that a text is answered with
is a value in this sense. -/
theorem evaluation_strict :
    (∀ e v, Expr.eval e = .ok v → e.HasValue v) ∧
    (∀ e : Expr, (¬ ∃ v, e.eval = .ok v) →
      e.eval = .error .notFinite ∧ e.binary.value = .error .notFinite) ∧
    (∀ e part : Expr, part.IsPart e → (¬ ∃ v, part.eval = .ok v) → e.eval = .error .notFinite) ∧
    ∀ text v, ofText text = .number v → ∃ tokens e,
      Token.tokens (Glyph.canonicalText text) = .ok tokens ∧ Expr.ofTokens tokens = .ok e ∧
        e.HasValue v := by
  refine ⟨fun e v => Expr.hasValue_of_eval, ?_, ?_, ?_⟩
  · intro e h
    rw [Expr.value_binary]
    exact ⟨Expr.eval_eq_error h, Expr.eval_eq_error h⟩
  · intro e part hpart h
    refine Expr.eval_eq_error fun ⟨v, hv⟩ => ?_
    obtain ⟨w, hw, -⟩ := (Expr.parts_of_eval hv part hpart).value
    exact h ⟨w, hw⟩
  · intro text v h
    obtain ⟨tokens, e, htokens, he, hv⟩ := exists_expr_of_number h
    exact ⟨tokens, e, htokens, he, Expr.hasValue_of_eval hv⟩

/-- One divided by infinity is not zero here. -/
example : (Expr.chain (.number 1) [(.div, .chain (.number 1) [(.div, .number 0)])]).eval
    = .error .notFinite := by
  rfl

end Evaluation

end PocketCalculator
