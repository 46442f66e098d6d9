import PocketCalculator.Proofs.Evaluation.Displayed
import PocketCalculator.Proofs.Evaluation.Enclosure
import PocketCalculator.Proofs.Grammar.LastOperand

/-!
# Keys that raise the entry

The two power keys write behind the entry and put no brackets around it. What they raise is the last
operand of the entry with its signs (`power_keys_raise`), which is the whole of it only if there is
nothing before that operand: the square key makes `1+2` into one and the square of two.
-/

namespace PocketCalculator

open Grammar (Splits)

namespace Spine

/-- Raising the last operand is raising the whole where there is nothing but that operand. -/
theorem fill_pow_eq_iff {spine : Spine} {operand : Expr} {k : Float} :
    spine.fill (.pow operand (.number k)) = .pow (spine.fill operand) (.number k)
      ↔ spine = .operand := by
  constructor
  · intro h
    cases spine with
    | operand => rfl
    | exponent base spine =>
      obtain ⟨-, hexponent⟩ := Expr.pow.inj h
      cases spine <;> cases hexponent
    | link => cases h
  · rintro rfl
    rfl

end Spine

namespace FunctionKey

variable {entry literal : List Char} {tokens : List Token} {k : Float}

theorem wrap_square (entry : List Char) : square.wrap entry = power.wrap entry ++ ['2'] := by
  show entry ++ ['^', '2'] = (entry ++ ['^']) ++ ['2']
  rw [List.append_assoc]
  rfl

theorem tokens_two : Token.tokens ['2'] = .ok [.number 2] := by
  have htwo : Token.ofNumber ['2'] = .ok (.number 2) := by
    unfold Token.ofNumber
    decide
  rw [Token.tokens_eq_ok_iff, Token.scan_number (by simp [Token.isNumeric]), htwo]
  rfl

theorem tokens_power (h : Token.tokens entry = .ok tokens)
    (hliteral : Token.tokens literal = .ok [.number k]) :
    Token.tokens (power.wrap entry ++ literal) = .ok (tokens ++ [.caret, .number k]) := by
  rw [Token.tokens_eq_ok_iff] at h hliteral ⊢
  show Token.scan ((entry ++ ['^']) ++ literal) = _
  rw [List.append_assoc, List.singleton_append, Token.scan_append_symbol (by decide), h, hliteral]
  simp only [List.map_append]
  rfl

end FunctionKey

namespace Evaluation

variable {entry : List Char} {tokens before last : List Token} {tree operand : Expr}
  {inner : Nat} {spine : Spine} {k : Float}

/-- Where the last operand is in as many exponents as there are levels, one more is too deep. -/
theorem ofTokens_raised (h : Splits .sum inner before last spine operand)
    (hlevels : Expr.maxLevels = inner + spine.levels) :
    Expr.ofTokens (before ++ last ++ [.caret, .number k])
      = if spine.levels < Expr.maxLevels then .ok (spine.fill (.pow operand (.number k)))
        else .error .tooDeep := by
  have hexponent (levels : Nat) : Grammar.Derives .operand .power levels [.number k] (.number k) :=
    Grammar.Derives.number.power_of_primary
  cases inner with
  | zero =>
    rw [if_neg (by omega)]
    rcases (h.raised (hexponent 0) (Nat.zero_le _)).ofTokens_reads with hok | ⟨-, hdeep⟩
    · have hlt := (Grammar.ofTokens_eq_ok_iff.mp hok).levels_lt rfl
      omega
    · exact hdeep
  | succ inner =>
    rw [if_pos (by omega), Grammar.ofTokens_eq_ok_iff, hlevels]
    exact h.raised (hexponent inner) (Nat.le_refl _)

/-- **The power keys raise the last operand.** The entry is some tokens and its last operand, with
the signs of that. Its value with an exponent behind the key is that of its tree with the power in
the operand's place, unless the operand is in as many exponents as there are levels. That tree is a
power of the whole entry exactly if there is nothing before the operand, and then the value is a
power of the value of the entry. The square key is the power key with a two behind it. -/
theorem power_keys_raise (htokens : Token.tokens entry = .ok tokens)
    (htree : Expr.ofTokens tokens = .ok tree) :
    ∃ inner before last spine operand, tokens = before ++ last ∧ tree = spine.fill operand ∧
      Splits .sum inner before last spine operand ∧
      (FunctionKey.square.wrap entry = FunctionKey.power.wrap entry ++ ['2'] ∧
        Token.tokens ['2'] = .ok [.number 2]) ∧
      ∀ literal k, Token.tokens literal = .ok [.number k] →
        valueOf (FunctionKey.power.wrap entry ++ literal)
          = (if spine.levels < Expr.maxLevels then (spine.fill (.pow operand (.number k))).eval
            else .error .tooDeep) ∧
        (spine.fill (.pow operand (.number k)) = .pow tree (.number k) ↔ before = []) ∧
        (before = [] → k.isFinite = true → ∀ v, tree.eval = .ok v →
          valueOf (FunctionKey.power.wrap entry ++ literal) = Operator.pow.apply v k) := by
  obtain ⟨inner, before, last, spine, operand, hlevels, rfl, rfl, hsplits⟩ :=
    (Grammar.ofTokens_eq_ok_iff.mp htree).hasLast (by simp)
  refine ⟨inner, before, last, spine, operand, rfl, rfl, hsplits,
    ⟨FunctionKey.wrap_square entry, FunctionKey.tokens_two⟩, fun literal k hliteral => ?_⟩
  have hvalue : valueOf (FunctionKey.power.wrap entry ++ literal)
      = (if spine.levels < Expr.maxLevels then (spine.fill (.pow operand (.number k))).eval
        else .error .tooDeep) := by
    rw [valueOf, FunctionKey.tokens_power htokens hliteral]
    show (Expr.ofTokens _ >>= Expr.eval) = _
    rw [ofTokens_raised hsplits hlevels]
    split <;> rfl
  refine ⟨hvalue, Spine.fill_pow_eq_iff.trans hsplits.whole, fun hbefore hk v hv => ?_⟩
  obtain rfl := hsplits.whole.mpr hbefore
  rw [hvalue, if_pos (by decide)]
  show (Expr.pow operand (.number k)).eval = _
  change operand.eval = .ok v at hv
  rw [Expr.eval, hv, Expr.eval, finite_eq_ok hk]
  rfl

/-- A negative number is raised with its sign. -/
theorem square_of_negative :
    Token.tokens "-3".toList = .ok [.minus, .number 3] ∧
      Expr.ofTokens [.minus, .number 3] = .ok (.neg (.number 3)) ∧
      (Expr.neg (.number 3)).eval = .ok (-3) ∧
      valueOf (FunctionKey.square.wrap "-3".toList) = Operator.pow.apply (-3) 2 := by
  have htokens : Token.tokens "-3".toList = .ok [.minus, .number 3] := by
    have hthree : Token.ofNumber ['3'] = .ok (.number 3) := by
      unfold Token.ofNumber
      decide
    rw [Token.tokens_eq_ok_iff]
    show Token.scan ('-' :: ['3']) = _
    rw [Token.scan_cons_symbol (by decide), Token.scan_number (by simp [Token.isNumeric]), hthree]
    rfl
  have hvalue : (Expr.neg (.number 3)).eval = .ok (-3) := by decide +kernel
  refine ⟨htokens, rfl, hvalue, ?_⟩
  obtain ⟨inner, before, last, spine, operand, -, htree, hsplits, ⟨hsquare, htwo⟩, hall⟩ :=
    power_keys_raise htokens rfl
  obtain ⟨-, -, hwhole⟩ := hall ['2'] 2 htwo
  have hspine : spine = .operand := by
    cases spine with
    | operand => rfl
    | exponent | link => cases htree
  rw [hsquare]
  exact hwhole (hsplits.whole.mp hspine) (by decide) _ hvalue

/-- One and two, with the square of the two taken instead of that of the sum: five, not nine. -/
theorem square_of_sum :
    valueOf "1+2".toList = .ok 3 ∧
      valueOf (FunctionKey.square.wrap "1+2".toList)
        = (do Operator.add.apply 1 (← Operator.pow.apply 2 2)) ∧
      (Float.pow 2 2 = 4 ∧ Float.pow 3 2 = 9 →
        valueOf (FunctionKey.square.wrap "1+2".toList) = .ok 5 ∧
        Operator.pow.apply 3 2 = .ok 9 ∧
        ¬ ∀ entry v, valueOf entry = .ok v →
          valueOf (FunctionKey.square.wrap entry) ≠ .error .tooDeep →
            valueOf (FunctionKey.square.wrap entry) = Operator.pow.apply v 2) := by
  have htokens : Token.tokens "1+2".toList = .ok [.number 1, .plus, .number 2] := by
    have htwo := Token.tokens_eq_ok_iff.mp FunctionKey.tokens_two
    rw [Token.tokens_eq_ok_iff]
    show Token.scan (['1'] ++ '+' :: ['2']) = _
    rw [Token.scan_append_symbol (by decide), Enclosure.scan_one, htwo]
    rfl
  have hsum : valueOf "1+2".toList = .ok 3 := by
    have hread : Expr.ofTokens [.number 1, .plus, .number 2]
        = .ok (.chain (.number 1) [(.add, .number 2)]) := rfl
    have heval : (Expr.chain (.number 1) [(.add, .number 2)]).eval = .ok 3 := by decide +kernel
    exact EvalError.bind_eq_ok.mpr ⟨_, htokens, EvalError.bind_eq_ok.mpr ⟨_, hread, heval⟩⟩
  have hsquare : valueOf (FunctionKey.square.wrap "1+2".toList)
      = (do Operator.add.apply 1 (← Operator.pow.apply 2 2)) := by
    have hone : finite 1 = .ok 1 := by decide
    have htwo : finite 2 = .ok 2 := by decide
    rw [FunctionKey.wrap_square, valueOf, FunctionKey.tokens_power htokens FunctionKey.tokens_two]
    show (Expr.chain (.number 1) [(.add, .pow (.number 2) (.number 2))]).eval = _
    simp only [Expr.eval, Expr.evalLinks, hone, htwo]
    exact congrArg _ (funext fun p => bind_pure _)
  refine ⟨hsum, hsquare, ?_⟩
  rintro ⟨htwo, hthree⟩
  have hfive : valueOf (FunctionKey.square.wrap "1+2".toList) = .ok 5 := by
    have hfour : Operator.pow.apply 2 2 = .ok 4 := by
      have hfinite : finite 4 = .ok 4 := by decide
      rw [Operator.apply, htwo]
      exact hfinite
    have hadd : Operator.add.apply 1 4 = .ok 5 := by decide +kernel
    rw [hsquare, hfour]
    exact hadd
  have hnine : Operator.pow.apply 3 2 = .ok 9 := by
    have hfinite : finite 9 = .ok 9 := by decide
    rw [Operator.apply, hthree]
    exact hfinite
  refine ⟨hfive, hnine, fun h => ?_⟩
  have hshallow : valueOf (FunctionKey.square.wrap "1+2".toList) ≠ .error .tooDeep := by
    rw [hfive]
    intro hdeep
    cases hdeep
  have heq := h _ _ hsum hshallow
  rw [hfive, hnine] at heq
  exact absurd (Except.ok.inj heq) (by decide)

end Evaluation

end PocketCalculator
