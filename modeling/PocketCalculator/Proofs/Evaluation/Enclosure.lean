import PocketCalculator.Evaluation
import PocketCalculator.Keypad.FunctionKey
import PocketCalculator.Proofs.Grammar.Nesting
import PocketCalculator.Proofs.Token.Seam

/-!
# Keys that enclose the entry

Eight of the function keys take the whole entry as their argument (`Enclosure`). Each adds tokens at
both ends and changes none of the entry (`tokens_wrap`), takes one level more (`Enclosure.nests`), and
is applied to the value of the entry (`eval_tree`). `enclosed_reads` puts these steps together for any
number of keys that are pressed one after the other.
-/

namespace PocketCalculator

open Grammar (Nests)

/-- What a key makes of the entry: the argument of a function, or the divisor of one. -/
inductive Enclosure where
  | call (name : MathFunction)
  | reciprocal
  deriving DecidableEq

namespace Enclosure

def key : Enclosure → FunctionKey
  | call .sin => .sin
  | call .cos => .cos
  | call .tan => .tan
  | call .ln => .ln
  | call .log => .log
  | call .sqrt => .sqrt
  | call .abs => .abs
  | reciprocal => .reciprocal

def tree : Enclosure → Expr → Expr
  | call name, e => .call name e
  | reciprocal, e => .chain (.number 1) [(.div, e)]

def value : Enclosure → Float → Except EvalError Float
  | call name, v => finite (name.apply v)
  | reciprocal, v => if v == 0.0 then .error .notFinite else finite (1 / v)

/-! ## Tokens -/

/-- The tokens that the key puts before those of the entry. -/
def opening : Enclosure → List Token
  | call .abs => [.bar]
  | call name => [.function name, .leftParen]
  | reciprocal => [.number 1, .slash, .leftParen]

/-- The token that it puts behind them. -/
def closing : Enclosure → Token
  | call .abs => .bar
  | _ => .rightParen

theorem scan_name {name : MathFunction} (hname : name ≠ .abs) :
    Token.scan name.name.toList = [.ok (.function name)] := by
  cases name with
  | abs => exact absurd rfl hname
  | _ =>
    rw [Token.scan_of_next?_some rfl, Token.scan_of_next?_none rfl]
    rfl

theorem scan_one : Token.scan ['1'] = [.ok (.number 1)] := by
  have hone : Token.ofNumber ['1'] = .ok (.number 1) := by
    unfold Token.ofNumber
    decide
  rw [Token.scan_number (by simp [Token.isNumeric]), hone]

theorem scan_opening (enclosure : Enclosure) (rest : List Char) :
    Token.scan (enclosure.key.opening ++ rest)
      = enclosure.opening.map .ok ++ Token.scan rest := by
  have hparen : Token.IsSymbol '(' := by decide
  cases enclosure with
  | call name =>
    by_cases hname : name = .abs
    · subst hname
      exact Token.scan_cons_symbol (by decide) rest
    · have htext : (call name).key.opening ++ rest = name.name.toList ++ '(' :: rest := by
        cases name <;> first | rfl | exact absurd rfl hname
      have htokens : (call name).opening = [.function name, .leftParen] := by
        cases name <;> first | rfl | exact absurd rfl hname
      rw [htext, htokens, Token.scan_append_symbol hparen, scan_name hname]
      rfl
  | reciprocal =>
    show Token.scan (['1'] ++ '/' :: '(' :: rest) = _
    rw [Token.scan_append_symbol (by decide), Token.scan_cons_symbol hparen, scan_one]
    rfl

theorem scan_closing (enclosure : Enclosure) (text : List Char) :
    Token.scan (text ++ enclosure.key.closing) = Token.scan text ++ [.ok enclosure.closing] := by
  have hnil : Token.scan [] = [] := Token.scan_of_next?_none rfl
  by_cases henclosure : enclosure = call .abs
  · subst henclosure
    show Token.scan (text ++ ['|']) = _
    rw [Token.scan_append_symbol (by decide), hnil]
    rfl
  · have htext : enclosure.key.closing = [')'] := by
      rcases enclosure with name | - <;> try cases name
      all_goals first | rfl | exact absurd rfl henclosure
    have htoken : enclosure.closing = .rightParen := by
      rcases enclosure with name | - <;> try cases name
      all_goals first | rfl | exact absurd rfl henclosure
    rw [htext, htoken, Token.scan_append_symbol (by decide), hnil]
    rfl

variable {entry : List Char} {tokens : List Token} {tree : Expr} {levels : Nat}

/-- The tokens of the entry are kept. -/
theorem tokens_wrap (enclosure : Enclosure) (h : Token.tokens entry = .ok tokens) :
    Token.tokens (enclosure.key.wrap entry)
      = .ok (enclosure.opening ++ (tokens ++ [enclosure.closing])) := by
  rw [Token.tokens_eq_ok_iff] at h ⊢
  rw [FunctionKey.wrap_eq, List.append_assoc, scan_opening, scan_closing, h]
  simp

/-! ## Levels and values -/

/-- The entry as a sum is the argument, one level further inside. -/
theorem nests (enclosure : Enclosure) (h : Nests levels tokens tree) :
    Nests (levels + 1) (enclosure.opening ++ (tokens ++ [enclosure.closing]))
      (enclosure.tree tree) := by
  cases enclosure with
  | call name =>
    cases name with
    | abs => exact h.bars
    | _ => exact h.argument _
  | reciprocal => exact h.reciprocal

theorem eval_tree (enclosure : Enclosure) (e : Expr) :
    (enclosure.tree e).eval = e.eval >>= enclosure.value := by
  cases enclosure with
  | call name =>
    rw [Enclosure.tree, Expr.eval]
    rfl
  | reciprocal =>
    have hone : (Expr.number 1).eval = .ok 1 := by
      rw [Expr.eval, finite, if_pos (by decide)]
    rw [Enclosure.tree, Expr.eval, hone]
    show Expr.evalLinks 1 [(.div, e)] = _
    rw [Expr.evalLinks]
    cases e.eval with
    | error cause => rfl
    | ok v =>
      show (Operator.div.apply 1 v >>= fun w => Expr.evalLinks w []) = value reciprocal v
      cases hquotient : Operator.div.apply 1 v with
      | error cause => exact hquotient.symm
      | ok w =>
        show Expr.evalLinks w [] = _
        rw [Expr.evalLinks]
        exact hquotient.symm

/-! ## Keys one after the other -/

/-- The entry after all these keys, the first of them innermost. -/
def wrapAll (enclosures : List Enclosure) (entry : List Char) : List Char :=
  enclosures.foldl (fun text enclosure => enclosure.key.wrap text) entry

def treeAll (enclosures : List Enclosure) (e : Expr) : Expr :=
  enclosures.foldl (fun e enclosure => enclosure.tree e) e

/-- The value after all these keys, each applied to what the one before it gives. -/
def valueAll (enclosures : List Enclosure) (result : Except EvalError Float) :
    Except EvalError Float :=
  enclosures.foldl (fun result enclosure => result >>= enclosure.value) result

theorem nests_wrapAll (enclosures : List Enclosure) (htokens : Token.tokens entry = .ok tokens)
    (h : Nests levels tokens tree) :
    ∃ enclosed, Token.tokens (wrapAll enclosures entry) = .ok enclosed ∧
      Nests (levels + enclosures.length) enclosed (treeAll enclosures tree) := by
  induction enclosures generalizing entry tokens tree levels with
  | nil => exact ⟨tokens, htokens, h⟩
  | cons enclosure enclosures ih =>
    obtain ⟨enclosed, hread, hnests⟩ := ih (enclosure.tokens_wrap htokens) (enclosure.nests h)
    rw [Nat.add_assoc, Nat.add_comm 1] at hnests
    exact ⟨enclosed, hread, hnests⟩

theorem eval_treeAll (enclosures : List Enclosure) (e : Expr) :
    (treeAll enclosures e).eval = valueAll enclosures e.eval := by
  induction enclosures generalizing e with
  | nil => rfl
  | cons enclosure enclosures ih => rw [treeAll, List.foldl_cons, ← treeAll, ih, eval_tree]; rfl

/-- **A key that encloses the entry is applied to its whole value.** Where the entry is read, it is
read again as the innermost argument, whatever keys enclose it, and the value is that of the keys
applied to the value of the entry. It is refused only for its depth, and exactly where the levels of
the entry and one for each key are more than there are. -/
theorem enclosed_reads (htokens : Token.tokens entry = .ok tokens)
    (htree : Expr.ofTokens tokens = .ok tree) :
    ∃ levels ≤ Expr.maxLevels, Nests levels tokens tree ∧ ∀ enclosures : List Enclosure,
      ∃ enclosed, Token.tokens (wrapAll enclosures entry) = .ok enclosed ∧
        (levels + enclosures.length ≤ Expr.maxLevels →
          Expr.ofTokens enclosed = .ok (treeAll enclosures tree) ∧
          Evaluation.valueOf (wrapAll enclosures entry) = valueAll enclosures tree.eval) ∧
        (Expr.maxLevels < levels + enclosures.length →
          Expr.ofTokens enclosed = .error .tooDeep ∧
          Evaluation.valueOf (wrapAll enclosures entry) = .error .tooDeep) := by
  obtain ⟨levels, hle, hnests⟩ := Grammar.exists_nests htree
  refine ⟨levels, hle, hnests, fun enclosures => ?_⟩
  obtain ⟨enclosed, hread, hall⟩ := nests_wrapAll enclosures htokens hnests
  have hvalue : Evaluation.valueOf (wrapAll enclosures entry)
      = Expr.ofTokens enclosed >>= Expr.eval := by
    rw [Evaluation.valueOf, hread]
    rfl
  refine ⟨enclosed, hread, fun hfits => ?_, fun hdeep => ?_⟩
  · have hok := hall.ofTokens_eq
    rw [if_pos hfits] at hok
    refine ⟨hok, ?_⟩
    rw [hvalue, hok, ← eval_treeAll]
    rfl
  · have herror := hall.ofTokens_eq
    rw [if_neg (Nat.not_le_of_lt hdeep)] at herror
    refine ⟨herror, ?_⟩
    rw [hvalue, herror]
    rfl

/-- Bars around bars, and one divided by that: `1/(||3-5||)`. -/
theorem reciprocal_bars_read :
    Token.tokens "|3-5|".toList = .ok [.bar, .number 3, .minus, .number 5, .bar] ∧
      Expr.ofTokens [.bar, .number 3, .minus, .number 5, .bar]
        = .ok (.call .abs (.chain (.number 3) [(.sub, .number 5)])) ∧
      ∃ enclosed, Token.tokens "1/(||3-5||)".toList = .ok enclosed ∧
        Expr.ofTokens enclosed = .ok (.chain (.number 1)
          [(.div, .call .abs (.call .abs (.chain (.number 3) [(.sub, .number 5)])))]) := by
  have htokens : Token.tokens "|3-5|".toList
      = .ok [.bar, .number 3, .minus, .number 5, .bar] := by
    have hnumbers : Token.ofNumber ['3'] = .ok (.number 3) ∧
        Token.ofNumber ['5'] = .ok (.number 5) := by
      unfold Token.ofNumber
      decide
    rw [Token.tokens_eq_ok_iff]
    show Token.scan ('|' :: (['3'] ++ '-' :: (['5'] ++ ['|']))) = _
    rw [Token.scan_cons_symbol (by decide), Token.scan_append_symbol (by decide),
      Token.scan_append_symbol (by decide), Token.scan_number (by simp [Token.isNumeric]),
      Token.scan_number (by simp [Token.isNumeric]), hnumbers.1, hnumbers.2,
      Token.scan_of_next?_none rfl]
    rfl
  have hderives : Grammar.Derives .operand .sum 1 [.bar, .number 3, .minus, .number 5, .bar]
      (.call .abs (.chain (.number 3) [(.sub, .number 5)])) := by
    have hthree : Grammar.Derives .operand .product 0 [.number 3] (.number 3) :=
      .product [] Grammar.Derives.number.power_of_primary (by simp) (by simp)
    have hfive : Grammar.Derives .operand .product 0 [.number 5] (.number 5) :=
      .product [] Grammar.Derives.number.power_of_primary (by simp) (by simp)
    have hsum := Grammar.Derives.sum [⟨.sub, _, _⟩] hthree (by simp [Grammar.additive])
      (by simpa using hfive)
    exact hsum.bars.sum_of_primary
  obtain ⟨levels, -, hnests, hall⟩ := enclosed_reads htokens rfl
  obtain ⟨enclosed, hread, hfits, -⟩ := hall [.call .abs, .reciprocal]
  have hlevels := hnests.least _ _ hderives
  have hdepth : levels + 2 ≤ 256 := by omega
  exact ⟨htokens, rfl, enclosed, hread, (hfits hdepth).1⟩

end Enclosure

end PocketCalculator
