import Mathlib.Data.Nat.Find
import PocketCalculator.Proofs.Grammar.Acceptance

/-!
# How deep a sum is

Tokens that are a sum need a least number of levels (`Nests`), and reading them depends on the limit
through that number alone: they are read if it is within the limit, and too deep otherwise
(`Nests.ofTokens_eq`). To enclose a sum takes one level more, whether it is put between bars, into the
argument of a function or below a fraction line. The bars of the sum itself do not matter: it is read
to its end before the bar that closes the new pair is looked for.
-/

namespace PocketCalculator.Grammar

open PocketCalculator.Expr

/-- The tokens are a sum with this tree, and it needs so many levels. -/
structure Nests (levels : Nat) (tokens : List Token) (tree : Expr) : Prop where
  derives : Derives .operand .sum levels tokens tree
  least : ∀ fewer tree', Derives .operand .sum fewer tokens tree' → levels ≤ fewer

variable {levels fewer : Nat} {tokens rest : List Token} {tree : Expr} {cause : EvalError}

/-! ## Reading depends on the number of levels alone -/

theorem Derives.sum_eq_ok (h : Derives .operand .sum levels tokens tree) :
    Expr.sum (inside levels) tokens = .ok (tree, []) := by
  have hreads := h.readsBack levels [] (by simp [Stops])
  rw [List.append_nil] at hreads
  rcases hreads with hok | ⟨hlt, -⟩
  · exact hok
  · exact absurd hlt (Nat.lt_irrefl _)

/-- A sum that fewer levels are too few for is one that needs all of them. -/
theorem nests_of_error (hd : Derives .operand .sum levels tokens tree)
    (herror : ∀ fewer < levels, Expr.sum (inside fewer) tokens = .error .tooDeep) :
    Nests levels tokens tree := by
  refine ⟨hd, fun fewer tree' hfewer => ?_⟩
  by_contra hlt
  have hok := hfewer.sum_eq_ok
  rw [herror fewer (Nat.lt_of_not_le hlt)] at hok
  cases hok

theorem Nests.sum_eq_error (h : Nests levels tokens tree) (hlt : fewer < levels)
    (hs : Stops .sum rest) : Expr.sum (inside fewer) (tokens ++ rest) = .error .tooDeep := by
  rcases h.derives.readsBack fewer rest hs with hok | ⟨-, herror⟩
  · obtain ⟨used, hused, hd, -⟩ := sound_sum (fun n _ => soundLevel n) _ _ _ hok
    obtain rfl := List.append_cancel_right hused
    exact absurd (h.least _ _ hd) (Nat.not_le_of_lt hlt)
  · exact herror

/-- **The limit decides.** A sum is read if it needs no more levels than there are. -/
theorem Nests.ofTokens_eq (h : Nests levels tokens tree) :
    ofTokens tokens = if levels ≤ maxLevels then .ok tree else .error .tooDeep := by
  rcases h.derives.ofTokens_reads with hok | ⟨hlt, herror⟩
  · rw [hok, if_pos (h.least _ _ (ofTokens_eq_ok_iff.mp hok))]
  · rw [herror, if_neg (Nat.not_le_of_lt hlt)]

/-- Whatever is read needs some number of levels. -/
theorem exists_nests (h : ofTokens tokens = .ok tree) :
    ∃ levels ≤ maxLevels, Nests levels tokens tree := by
  classical
  have hsome : ∃ levels tree', Derives .operand .sum levels tokens tree' :=
    ⟨maxLevels, tree, ofTokens_eq_ok_iff.mp h⟩
  have hle : Nat.find hsome ≤ maxLevels := Nat.find_le ⟨tree, ofTokens_eq_ok_iff.mp h⟩
  obtain ⟨tree', hd⟩ := Nat.find_spec hsome
  have hnests : Nests (Nat.find hsome) tokens tree' :=
    ⟨hd, fun fewer other hfewer => Nat.find_le ⟨other, hfewer⟩⟩
  have heq := hnests.ofTokens_eq
  rw [h, if_pos hle] at heq
  obtain rfl := Except.ok.inj heq
  exact ⟨_, hle, hnests⟩

/-! ## Enclosing takes a level -/

theorem Derives.power_of_primary (h : Derives .operand .primary levels tokens tree) :
    Derives .operand .power levels tokens tree := by
  have hpercentage := Derives.percents 0 h
  rw [List.replicate_zero, List.append_nil] at hpercentage
  exact .base (.unsigned hpercentage)

theorem Derives.sum_of_product (h : Derives .operand .product levels tokens tree) :
    Derives .operand .sum levels tokens tree := by
  have hsum := Derives.sum [] h (by simp) (by simp)
  rw [List.flatMap_nil, List.append_nil] at hsum
  exact hsum

theorem Derives.sum_of_primary (h : Derives .operand .primary levels tokens tree) :
    Derives .operand .sum levels tokens tree := by
  have hproduct := Derives.product [] h.power_of_primary (by simp) (by simp)
  rw [List.flatMap_nil, List.append_nil] at hproduct
  exact hproduct.sum_of_product

section Errors

variable {inner : Option Level} {token : Token}

/-- An error of the operand with which a power begins is one of the power. -/
theorem power_eq_error (hb : beginsOperand token = true)
    (h : primary inner (token :: rest) = .error cause) :
    power inner (token :: rest) = .error cause := by
  rw [power, signed_of_begins hb, percentageReader, h]
  rfl

theorem sum_eq_error_of_power (h : power inner tokens = .error cause) :
    Expr.sum inner tokens = .error cause := by
  rw [Expr.sum, readChain, product, readChain, h]
  rfl

/-- An error of the divisor is one of the fraction. -/
theorem quotient_eq_error {value : Float} (hoperand : expectOperand tokens = .ok ())
    (h : power inner tokens = .error cause) :
    Expr.sum inner (.number value :: .slash :: tokens) = .error cause := by
  have hnumerator : power inner (.number value :: .slash :: tokens)
      = .ok (.number value, .slash :: tokens) := rfl
  rw [Expr.sum, readChain, product, readChain, hnumerator]
  show (readLinks multiplicative? (power inner) [] (.slash :: tokens) (.slash :: tokens) >>= _)
    >>= _ = _
  rw [readLinks, show multiplicative? .slash = some .div from rfl]
  dsimp only
  rw [hoperand]
  show ((power inner tokens >>= _) >>= _) >>= _ = _
  rw [h]
  rfl

end Errors

/-- The group around a sum has one level less for it. -/
theorem Nests.group_eq_error (h : Nests levels tokens tree) (hlt : fewer < levels + 1)
    {close : Token} (hclose : close ∉ continuations .sum) (rest : List Token) :
    group (inside fewer) close (tokens ++ close :: rest) = .error .tooDeep := by
  obtain ⟨token, more, rfl, -⟩ := h.derives.exists_cons
  cases fewer with
  | zero => rfl
  | succ fewer =>
    have hs : Stops .sum (close :: rest) := stops_cons.mpr hclose
    have herror := h.sum_eq_error (Nat.lt_of_succ_lt_succ hlt) hs
    show (level fewer).sum _ >>= _ = _
    rw [level_eq_around]
    show Expr.sum (inside fewer) _ >>= _ = _
    rw [herror]
    rfl

/-- A bracket that is opened before a sum opens a group. -/
theorem Nests.brackets_eq_error (h : Nests levels tokens tree) (hlt : fewer < levels + 1)
    (rest : List Token) :
    primary (inside fewer) (.leftParen :: (tokens ++ .rightParen :: rest)) = .error .tooDeep := by
  have hgroup := h.group_eq_error hlt (show Token.rightParen ∉ _ by decide) rest
  obtain ⟨token, more, rfl, hb⟩ := h.derives.exists_cons
  have hne : token ≠ .rightParen := by
    rintro rfl
    cases hb
  exact (primary_leftParen hne).trans hgroup

theorem Nests.bars (h : Nests levels tokens tree) :
    Nests (levels + 1) (.bar :: (tokens ++ [.bar])) (.call .abs tree) := by
  refine nests_of_error h.derives.bars.sum_of_primary fun fewer hlt => ?_
  have hgroup := h.group_eq_error hlt (show Token.bar ∉ _ by decide) []
  refine sum_eq_error_of_power (power_eq_error rfl ?_)
  show group _ _ _ >>= _ = _
  rw [hgroup]
  rfl

theorem Nests.argument (h : Nests levels tokens tree) (name : MathFunction) :
    Nests (levels + 1) (.function name :: .leftParen :: (tokens ++ [.rightParen]))
      (.call name tree) := by
  refine nests_of_error (Derives.argument h.derives).sum_of_primary fun fewer hlt => ?_
  have hgroup := h.group_eq_error hlt (show Token.rightParen ∉ _ by decide) []
  obtain ⟨token, more, rfl, hb⟩ := h.derives.exists_cons
  refine sum_eq_error_of_power (power_eq_error rfl ?_)
  rw [primary_function, List.cons_append, Expr.argument]
  · show group _ _ _ >>= _ = _
    rw [← List.cons_append, hgroup]
    rfl
  · rintro rest ⟨⟩
    cases hb

/-- One divided by the sum. -/
theorem Nests.reciprocal (h : Nests levels tokens tree) :
    Nests (levels + 1) (.number 1 :: .slash :: .leftParen :: (tokens ++ [.rightParen]))
      (.chain (.number 1) [(.div, tree)]) := by
  have hnumerator : Derives .operand .power (levels + 1) [.number 1] (.number 1) :=
    Derives.number.power_of_primary
  have hdivisor := h.derives.brackets.power_of_primary
  refine nests_of_error ?_ fun fewer hlt => ?_
  · have hproduct := Derives.product [⟨.div, _, tree⟩] hnumerator (by simp [multiplicative])
      (by simpa using hdivisor)
    rw [List.flatMap_singleton] at hproduct
    exact hproduct.sum_of_product
  · have hprimary := h.brackets_eq_error hlt []
    exact quotient_eq_error rfl (power_eq_error rfl hprimary)

end PocketCalculator.Grammar
