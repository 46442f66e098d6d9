import PocketCalculator.Proofs.Evaluation.Operands
import PocketCalculator.Proofs.Grammar.Refusal

/-!
# The operand check and the tokens

An evaluation answers with what its tokens are worth, and says that there is no operand if there is
none among them, but for one case: the check knows the circle constant by its sign only. A text
whose operands are all spelled `pi` is refused (`OnlySpelledPi`).
-/

namespace PocketCalculator

/-! ## Errors of values -/

namespace Expr

theorem finite_error {v : Float} {cause : EvalError} (h : finite v = .error cause) :
    cause = .notFinite := by
  unfold finite at h
  split at h
  · cases h
  · exact (Except.error.inj h).symm

theorem apply_error {op : Operator} {l r : Float} {cause : EvalError}
    (h : op.apply l r = .error cause) : cause = .notFinite := by
  cases op <;> dsimp only [Operator.apply] at h
  case div =>
    split at h
    · exact (Except.error.inj h).symm
    · exact finite_error h
  all_goals exact finite_error h

mutual

/-- An expression has no value for one reason only. -/
theorem eval_error {cause : EvalError} : ∀ {e : Expr}, e.eval = .error cause → cause = .notFinite
  | number _, h => by
    rw [eval] at h
    exact finite_error h
  | neg operand, h => by
    rw [eval] at h
    rcases EvalError.bind_eq_error.mp h with h | ⟨v, -, h⟩
    · exact eval_error h
    · exact finite_error h
  | percent operand _, h => by
    rw [eval] at h
    rcases EvalError.bind_eq_error.mp h with h | ⟨v, -, h⟩
    · exact eval_error h
    · exact finite_error h
  | chain first links, h => by
    rw [eval] at h
    rcases EvalError.bind_eq_error.mp h with h | ⟨v, -, h⟩
    · exact eval_error h
    · exact evalLinks_error h
  | pow base exponent, h => by
    rw [eval] at h
    rcases EvalError.bind_eq_error.mp h with h | ⟨b, -, h⟩
    · exact eval_error h
    · rcases EvalError.bind_eq_error.mp h with h | ⟨e, -, h⟩
      · exact eval_error h
      · exact apply_error h
  | call _ argument, h => by
    rw [eval] at h
    rcases EvalError.bind_eq_error.mp h with h | ⟨v, -, h⟩
    · exact eval_error h
    · exact finite_error h

theorem evalLinks_error {cause : EvalError} :
    ∀ {v : Float} {links : List (Operator × Expr)}, evalLinks v links = .error cause →
      cause = .notFinite
  | _, [], h => by
    rw [evalLinks] at h
    cases h
  | _, (op, operand) :: links, h => by
    rw [evalLinks] at h
    rcases EvalError.bind_eq_error.mp h with h | ⟨r, -, h⟩
    · exact eval_error h
    · rcases EvalError.bind_eq_error.mp h with h | ⟨v, -, h⟩
      · exact apply_error h
      · exact evalLinks_error h

end

end Expr

namespace Evaluation

def valueOfTokens (tokens : List Token) : Except EvalError Float := do
  let e ← Expr.ofTokens tokens
  e.eval

/-- Where there is an operand, the lack of one is not what is wrong. -/
theorem valueOfTokens_ne_noOperand {tokens : List Token} (h : tokens ≠ []) :
    ofExcept (valueOfTokens tokens) ≠ .error .noOperand := by
  cases hv : valueOfTokens tokens with
  | ok v => nofun
  | error cause =>
    rintro hc
    obtain rfl : cause = .noOperand := error.inj hc
    rcases EvalError.bind_eq_error.mp hv with he | ⟨e, -, he⟩
    · exact absurd (Expr.ofTokens_refuses h _ he) (by decide)
    · exact absurd (Expr.eval_error he) (by decide)

/-! ## The check -/

theorem canonical_eq_pi {c : Char} : Glyph.canonical c = 'π' ↔ c = 'π' := by
  constructor
  · intro h
    rcases Glyph.canonical_eq c with hc | hc | hc | hc <;> rw [hc] at h
    · exact h
    all_goals exact absurd h (by decide)
  · rintro rfl
    rfl

theorem pi_mem_canonicalText {text : List Char} :
    'π' ∈ Glyph.canonicalText text ↔ 'π' ∈ text := by
  simp [Glyph.canonicalText, canonical_eq_pi]

theorem isOperandChar_iff {c : Char} :
    isOperandChar c = true ↔ Token.isDigitOrE c = true ∨ c = 'π' := by
  simp only [isOperandChar, Token.isDigitOrE, Bool.or_eq_true, beq_iff_eq, or_right_comm]

/-- The text has operands, and each of them is the circle constant by its name. -/
def OnlySpelledPi (text : List Char) (tokens : List Token) : Prop :=
  (∃ token ∈ tokens, token.isOperand = true) ∧
    (∀ token ∈ tokens, token.isOperand = true → token = .constant .pi) ∧ 'π' ∉ text

/-- The evaluation of the text is that of its tokens: without an operand among them it says so, and
otherwise it is their value, or the reason why they have none. -/
def AgreesWithTokens (text : List Char) (tokens : List Token) : Prop :=
  (ofText text = .error .noOperand ↔ ∀ token ∈ tokens, token.isOperand = false) ∧
    ((∃ token ∈ tokens, token.isOperand = true) →
      ofText text = ofExcept (valueOfTokens tokens))

variable {text : List Char} {tokens : List Token}

theorem check_iff (htokens : Token.tokens (Glyph.canonicalText text) = .ok tokens) :
    (Glyph.canonicalText text).any isOperandChar = true ↔
      (∃ token ∈ tokens, token.isOperand = true) ∧ ¬ OnlySpelledPi text tokens := by
  obtain ⟨hplain, hpi⟩ := Token.scan_operands _ tokens (Token.tokens_eq_ok_iff.mp htokens)
  constructor
  · intro h
    obtain ⟨c, hc, hop⟩ := List.any_eq_true.mp h
    rcases isOperandChar_iff.mp hop with hd | rfl
    · obtain ⟨token, ht, hp⟩ := List.any_eq_true.mp (hplain ▸ List.any_eq_true.mpr ⟨c, hc, hd⟩)
      rw [Token.isPlainOperand, Bool.and_eq_true, bne_iff_ne] at hp
      exact ⟨⟨token, ht, hp.1⟩, fun h => hp.2 (h.2.1 token ht hp.1)⟩
    · exact ⟨⟨_, hpi hc, rfl⟩, fun h => h.2.2 (pi_mem_canonicalText.mp hc)⟩
  · rintro ⟨hop, hnot⟩
    -- Nothing is found, so no operand is a plain one and there is no sign of the circle constant.
    by_contra hno
    rw [List.any_eq_true] at hno
    refine hnot ⟨hop, fun token ht ho => ?_, fun hc => ?_⟩
    · by_contra hne
      have hp : token.isPlainOperand = true := by
        rw [Token.isPlainOperand, ho, Bool.true_and, bne_iff_ne]
        exact hne
      obtain ⟨c, hc, hd⟩ := List.any_eq_true.mp (hplain ▸ List.any_eq_true.mpr ⟨token, ht, hp⟩)
      exact hno ⟨c, hc, isOperandChar_iff.mpr (.inl hd)⟩
    · exact hno ⟨'π', pi_mem_canonicalText.mpr hc, isOperandChar_iff.mpr (.inr rfl)⟩

theorem ofText_eq (htext : text ≠ secretText)
    (htokens : Token.tokens (Glyph.canonicalText text) = .ok tokens) :
    ofText text = if (Glyph.canonicalText text).any isOperandChar
      then ofExcept (valueOfTokens tokens) else .error .noOperand := by
  unfold ofText
  rw [if_neg htext]
  dsimp only
  rw [valueOf, htokens]
  rfl

/-- **The operand check hides nothing but a spelled circle constant.** The evaluation of a text is
that of its tokens unless each operand is the circle constant by its name, and then it says that
there is no operand. -/
theorem agreesWithTokens_iff (htext : text ≠ secretText)
    (htokens : Token.tokens (Glyph.canonicalText text) = .ok tokens) :
    (AgreesWithTokens text tokens ↔ ¬ OnlySpelledPi text tokens) ∧
      (OnlySpelledPi text tokens → ofText text = .error .noOperand) := by
  have hcheck := check_iff htokens
  have heq := ofText_eq htext htokens
  have hrefused : OnlySpelledPi text tokens → ofText text = .error .noOperand := by
    intro h
    rw [heq, if_neg fun hc => (hcheck.mp hc).2 h]
  refine ⟨⟨fun hagree h => ?_, fun h => ?_⟩, hrefused⟩
  · obtain ⟨token, ht, ho⟩ := h.1
    have hnone := hagree.1.mp (hrefused h) token ht
    rw [ho] at hnone
    cases hnone
  · by_cases hop : ∃ token ∈ tokens, token.isOperand = true
    · -- The check lets the text through, and no error of reading or of a value is its own.
      have hvalue : ofText text = ofExcept (valueOfTokens tokens) := by
        rw [heq, if_pos (hcheck.mpr ⟨hop, h⟩)]
      obtain ⟨token, ht, ho⟩ := hop
      refine ⟨iff_of_false ?_ fun hall => ?_, fun _ => hvalue⟩
      · rw [hvalue]
        exact valueOfTokens_ne_noOperand (List.ne_nil_of_mem ht)
      · rw [hall token ht] at ho
        cases ho
    · have hnone : ∀ token ∈ tokens, token.isOperand = false := by
        intro token ht
        rw [← Bool.not_eq_true]
        exact fun ho => hop ⟨token, ht, ho⟩
      refine ⟨iff_of_true ?_ hnone, fun h => absurd h hop⟩
      rw [heq, if_neg fun hc => hop (hcheck.mp hc).1]

/-- The sign of the circle constant is found by the check. -/
theorem piSign_agrees :
    ['π'] ≠ secretText ∧ Token.tokens (Glyph.canonicalText ['π']) = .ok [.constant .pi] ∧
      AgreesWithTokens ['π'] [.constant .pi] := by
  have htokens : Token.tokens (Glyph.canonicalText ['π']) = .ok [.constant .pi] := by
    rw [Token.tokens_eq_ok_iff, Token.scan_of_next?_some rfl, Token.scan_of_next?_none rfl]
    rfl
  have hsign : ¬ OnlySpelledPi ['π'] [.constant .pi] := fun h => h.2.2 List.mem_cons_self
  exact ⟨by decide, htokens, (agreesWithTokens_iff (by decide) htokens).1.mpr hsign⟩

/-- Its name is not, although it is a token. -/
theorem piName_refused :
    ['p', 'i'] ≠ secretText ∧ Token.tokens (Glyph.canonicalText ['p', 'i']) = .ok [.constant .pi] ∧
      ofText ['p', 'i'] = .error .noOperand ∧
      ¬ AgreesWithTokens ['p', 'i'] [.constant .pi] := by
  have htokens : Token.tokens (Glyph.canonicalText ['p', 'i']) = .ok [.constant .pi] := by
    rw [Token.tokens_eq_ok_iff, Token.scan_of_next?_some rfl, Token.scan_of_next?_none rfl]
    rfl
  have hrefused : ofText ['p', 'i'] = .error .noOperand := rfl
  refine ⟨by decide, htokens, hrefused, fun h => ?_⟩
  exact absurd (h.1.mp hrefused _ List.mem_cons_self) (by decide)

end Evaluation

end PocketCalculator
