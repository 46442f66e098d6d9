import PocketCalculator.Proofs.Grammar.Soundness

/-!
# The expressions that are read

A list of tokens is read as an expression exactly if it is a sum of at most `maxLevels` levels
(`ofTokens_eq_ok_iff`), and `ofTokens_phrase` says what becomes of the others: a sum that is deeper
is refused for its depth and for nothing else.

The grammar alone does not fix the tree. `√9%` has two derivations, of which the reader follows the
one that takes the root last; `rootPercent_tree` keeps the other apart.
-/

namespace PocketCalculator.Grammar

open PocketCalculator.Expr
open EvalError (bind_eq_ok)

variable {tokens : List Token} {tree : Expr} {levels : Nat}

/-- What follows a sum that is read decides what becomes of it. -/
theorem ofTokens_of_ne_nil (hne : tokens ≠ []) :
    ofTokens tokens = (do
      let (e, rest) ← Expr.sum (inside maxLevels) tokens
      match rest with
      | [] => .ok e
      | .rightParen :: _ => .error .unbalanced
      | token :: _ => .error (.unexpectedToken token.text)) := by
  obtain ⟨token, rest, rfl⟩ := List.exists_cons_of_ne_nil hne
  rw [ofTokens, level_eq_around]
  · rfl
  · exact hne

/-- A sum of any depth is read, or it is too deep. -/
theorem Derives.ofTokens_reads (h : Derives .operand .sum levels tokens tree) :
    Reads maxLevels levels (ofTokens tokens) tree := by
  obtain ⟨token, more, rfl, -⟩ := h.exists_cons
  rw [ofTokens_of_ne_nil (List.cons_ne_nil _ _)]
  have hr := h.readsBack maxLevels [] (by simp [Stops])
  rw [List.append_nil] at hr
  exact hr.bind .ok

/-- **Reading tokens is deriving them**, within the levels that there are. -/
theorem ofTokens_eq_ok_iff :
    ofTokens tokens = .ok tree ↔ Derives .operand .sum maxLevels tokens tree := by
  constructor
  · intro h
    rcases tokens with - | ⟨token, more⟩
    · cases h
    · rw [ofTokens_of_ne_nil (List.cons_ne_nil _ _)] at h
      obtain ⟨⟨e, rest⟩, he, h⟩ := bind_eq_ok.mp h
      obtain ⟨used, hu, hd, -⟩ := sound_sum (fun n _ => soundLevel n) _ _ _ he
      dsimp only at h
      split at h
      · cases h
        rw [hu, List.append_nil]
        exact hd
      · cases h
      · cases h
  · intro h
    rcases h.ofTokens_reads with hr | ⟨hl, -⟩
    · exact hr
    · exact absurd hl (Nat.lt_irrefl _)

/-- **The reader accepts exactly the grammar.** The trees are those of the derivations in which the
percent signs after a bare root are its operand's. Whether there is a tree at all does not depend on
that. Tokens that are a sum, but not within `maxLevels` levels, are refused as too deep. -/
theorem ofTokens_phrase (tokens : List Token) :
    (∀ tree, ofTokens tokens = .ok tree ↔ Derives .operand .sum maxLevels tokens tree) ∧
    (∀ tree, ofTokens tokens = .ok tree → Derives .anywhere .sum maxLevels tokens tree) ∧
    ((∃ tree, ofTokens tokens = .ok tree) ↔
      ∃ tree, Derives .anywhere .sum maxLevels tokens tree) ∧
    ((∃ levels tree, Derives .anywhere .sum levels tokens tree) →
      (ofTokens tokens = .error .tooDeep ↔
        ¬ ∃ tree, Derives .anywhere .sum maxLevels tokens tree)) := by
  have haccept : (∃ tree, ofTokens tokens = .ok tree) ↔
      ∃ tree, Derives .anywhere .sum maxLevels tokens tree := by
    constructor
    · rintro ⟨tree, h⟩
      exact ⟨tree, (ofTokens_eq_ok_iff.mp h).ofOperand⟩
    · rintro ⟨tree, h⟩
      obtain ⟨tree', h'⟩ := h.toOperand
      exact ⟨tree', ofTokens_eq_ok_iff.mpr h'⟩
  refine ⟨fun tree => ofTokens_eq_ok_iff, fun tree h => (ofTokens_eq_ok_iff.mp h).ofOperand,
    haccept, ?_⟩
  rintro ⟨levels, tree, h⟩
  rw [← haccept]
  constructor
  · rintro hdeep ⟨tree, hok⟩
    rw [hdeep] at hok
    cases hok
  · intro hnone
    obtain ⟨tree', h'⟩ := h.toOperand
    rcases h'.ofTokens_reads with hok | ⟨-, hdeep⟩
    · exact absurd ⟨tree', hok⟩ hnone
    · exact hdeep

/-- The grammar as it is written allows `√9%` to be a hundredth of a root; it is read as the root of
a hundredth. -/
theorem rootPercent_tree :
    ¬ (ofTokens [.function .sqrt, .number 9, .percent] = .ok (.percent (.call .sqrt (.number 9)) 1) ↔
      Derives .anywhere .sum maxLevels [.function .sqrt, .number 9, .percent]
        (.percent (.call .sqrt (.number 9)) 1)) := by
  intro h
  have hnine : Derives .anywhere .percentage 255 [.number 9] (.number 9) :=
    .percents 0 .number
  have hroot : Derives .anywhere .percentage 256 [.function .sqrt, .number 9, .percent]
      (.percent (.call .sqrt (.number 9)) 1) :=
    .rootPercents 1 (.root hnine (by simp)) nofun
  have hread : ofTokens [.function .sqrt, .number 9, .percent]
      = .ok (.call .sqrt (.percent (.number 9) 1)) := rfl
  have hproduct : Derives .anywhere .product 256 [.function .sqrt, .number 9, .percent]
      (.percent (.call .sqrt (.number 9)) 1) :=
    .product [] (.base (.unsigned hroot)) (by simp) (by simp)
  have hsum := h.mpr (.sum [] hproduct (by simp) (by simp))
  rw [hread] at hsum
  cases hsum

end PocketCalculator.Grammar
