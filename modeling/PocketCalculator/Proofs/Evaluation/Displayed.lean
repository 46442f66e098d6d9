import PocketCalculator.Proofs.Decimal.Exact
import PocketCalculator.Proofs.Evaluation.OperandCheck
import PocketCalculator.Proofs.Token.Seam

/-!
# Evaluating a number as it is displayed

A number on the display is a row of digits with at most one point, with a minus in front of it if it
is negative. It has one or two tokens (`tokens_text`), and its value is the number that is displayed,
zero for negative zero (`ofText_display`). Only the text with a fixed answer is not read.
-/

namespace PocketCalculator

/-! ## Values are finite -/

namespace Expr

theorem isFinite_of_finite {v w : Float} (h : finite v = .ok w) : w.isFinite = true := by
  unfold finite at h
  split at h
  · next hfinite =>
    obtain rfl := Except.ok.inj h
    exact hfinite
  · cases h

theorem isFinite_of_apply {operator : Operator} {l r v : Float}
    (h : operator.apply l r = .ok v) : v.isFinite = true := by
  cases operator <;> dsimp only [Operator.apply] at h
  case div =>
    split at h
    · cases h
    · exact isFinite_of_finite h
  all_goals exact isFinite_of_finite h

mutual

/-- A value is a finite number. -/
theorem isFinite_of_eval {v : Float} : ∀ {e : Expr}, e.eval = .ok v → v.isFinite = true
  | number _, h => by
    rw [eval] at h
    exact isFinite_of_finite h
  | neg _, h => by
    rw [eval] at h
    obtain ⟨w, -, h⟩ := EvalError.bind_eq_ok.mp h
    exact isFinite_of_finite h
  | percent _ _, h => by
    rw [eval] at h
    obtain ⟨w, -, h⟩ := EvalError.bind_eq_ok.mp h
    exact isFinite_of_finite h
  | chain _ _, h => by
    rw [eval] at h
    obtain ⟨w, hw, h⟩ := EvalError.bind_eq_ok.mp h
    exact isFinite_of_evalLinks (isFinite_of_eval hw) h
  | pow _ _, h => by
    rw [eval] at h
    obtain ⟨b, -, h⟩ := EvalError.bind_eq_ok.mp h
    obtain ⟨e, -, h⟩ := EvalError.bind_eq_ok.mp h
    exact isFinite_of_apply h
  | call _ _, h => by
    rw [eval] at h
    obtain ⟨w, -, h⟩ := EvalError.bind_eq_ok.mp h
    exact isFinite_of_finite h

theorem isFinite_of_evalLinks {v : Float} :
    ∀ {w : Float} {links : List (Operator × Expr)}, w.isFinite = true →
      evalLinks w links = .ok v → v.isFinite = true
  | w, [], hw, h => by
    rw [evalLinks] at h
    exact Except.ok.inj h ▸ hw
  | _, (_, _) :: _, _, h => by
    rw [evalLinks] at h
    obtain ⟨r, -, h⟩ := EvalError.bind_eq_ok.mp h
    obtain ⟨u, hu, h⟩ := EvalError.bind_eq_ok.mp h
    exact isFinite_of_evalLinks (isFinite_of_apply hu) h

end

end Expr

/-! ## The text of a decimal -/

theorem Decimal.exists_text (d : Decimal) : ∃ c rest, d.text = c :: rest := by
  refine List.exists_cons_of_ne_nil fun hnil => ?_
  have hread := ofText?_text d
  rw [hnil] at hread
  cases hread

theorem Decimal.isNumeric_of_mem_text {d : Decimal} {c : Char} (h : c ∈ d.text) :
    Token.isNumeric c = true := by
  have hdigit : c ∈ d.digits → Token.isNumeric c = true := by
    intro hc
    rw [Token.isNumeric, isDigit_of_mem_digits hc, Bool.true_or]
  rw [text] at h
  split at h
  · exact hdigit h
  · rcases List.mem_append.mp h with h | h
    · exact hdigit (List.mem_of_mem_take h)
    · rcases List.mem_cons.mp h with rfl | h
      · rfl
      · exact hdigit (List.mem_of_mem_drop h)

theorem Numeral.display_ne_nil (v : Float) : display v ≠ [] := by
  have hmagnitude : magnitude v ≠ [] := by
    obtain ⟨c, rest, htext⟩ := (Decimal.shortest v).exists_text
    unfold magnitude
    split
    · decide
    · split
      · decide
      · rw [htext]
        exact List.cons_ne_nil c rest
  unfold display text
  split
  · decide
  · split
    · decide
    · split
      · exact List.cons_ne_nil _ _
      · exact hmagnitude

namespace Token

/-- The text of a decimal is one piece, and the piece is the number. -/
theorem scan_text (d : Decimal) : scan d.text = [.ok (.number d.toFloat)] := by
  obtain ⟨c, rest, htext⟩ := d.exists_text
  have hall : ∀ digit ∈ c :: rest, isNumeric digit = true := by
    intro digit hdigit
    rw [← htext] at hdigit
    exact Decimal.isNumeric_of_mem_text hdigit
  rw [htext, scan_number hall, ← htext, ofNumber, Decimal.ofText?_text]

theorem tokens_text (d : Decimal) : tokens d.text = .ok [.number d.toFloat] :=
  tokens_eq_ok_iff.mpr (scan_text d)

theorem tokens_minus_text (d : Decimal) :
    tokens ('-' :: d.text) = .ok [.minus, .number d.toFloat] := by
  rw [tokens_eq_ok_iff, scan_cons_symbol (by decide), scan_text]
  rfl

end Token

namespace Evaluation

theorem toNat_of_mem_text {d : Decimal} {c : Char} (h : c ∈ d.text) : c.toNat < 0x80 := by
  have hnumeric := Token.toNat_of_isNumeric (Decimal.isNumeric_of_mem_text h)
  omega

/-- The operand check finds a digit in the text of a decimal. -/
theorem any_isOperandChar_text (d : Decimal) : d.text.any isOperandChar = true := by
  obtain ⟨c, hc, hdigit⟩ := Token.exists_digit_of_ofText? (Decimal.ofText?_text d)
  refine List.any_eq_true.mpr ⟨c, hc, ?_⟩
  rw [isOperandChar, hdigit]
  rfl

theorem finite_eq_ok {v : Float} (h : v.isFinite = true) : finite v = .ok v :=
  if_pos h

theorem ofText_text {d : Decimal} (hfinite : d.toFloat.isFinite = true)
    (hsecret : d.text ≠ secretText) : ofText d.text = .number d.toFloat := by
  have htext : Glyph.canonicalText d.text = d.text :=
    Glyph.canonicalText_eq fun c hc => toNat_of_mem_text hc
  have htokens := Token.tokens_text d
  rw [← htext] at htokens
  have heval : valueOfTokens [.number d.toFloat] = .ok d.toFloat := by
    show (Expr.number d.toFloat).eval = _
    rw [Expr.eval, finite_eq_ok hfinite]
  rw [ofText_eq hsecret htokens, htext, if_pos (any_isOperandChar_text d), heval]
  rfl

theorem ofText_minus_text {d : Decimal} (hfinite : d.toFloat.isFinite = true)
    (hneg : (-d.toFloat).isFinite = true) : ofText ('-' :: d.text) = .number (-d.toFloat) := by
  have htext : Glyph.canonicalText ('-' :: d.text) = '-' :: d.text := by
    refine Glyph.canonicalText_eq fun c hc => ?_
    rcases List.mem_cons.mp hc with rfl | hc
    · decide
    · exact toNat_of_mem_text hc
  have htokens := Token.tokens_minus_text d
  rw [← htext] at htokens
  have hsecret : '-' :: d.text ≠ secretText := by
    intro h
    cases (List.cons.inj h).1
  have heval : valueOfTokens [.minus, .number d.toFloat] = .ok (-d.toFloat) := by
    show (Expr.neg (.number d.toFloat)).eval = _
    rw [Expr.eval, Expr.eval, finite_eq_ok hfinite]
    exact finite_eq_ok hneg
  have hoperand : ('-' :: d.text).any isOperandChar = true := by
    rw [List.any_cons, any_isOperandChar_text, Bool.or_true]
  rw [ofText_eq hsecret htokens, htext, if_pos hoperand, heval]
  rfl

/-! ## The text of a float -/

section Display

open Float.Model.UnpackedFloat (Sign)

variable {v : Float} {sign : Sign} {mantissa : Nat} {exponent : Int}

theorem display_of_hasParts (hv : Binary.HasParts v sign mantissa exponent)
    (hzero : (v == 0.0) = false) :
    Numeral.display v = match sign with
      | .negative => '-' :: (Decimal.shortest v).text
      | .positive => (Decimal.shortest v).text := by
  have hmagnitude : Numeral.magnitude v = (Decimal.shortest v).text := by
    rw [Numeral.magnitude, hv.not_isInf, hzero]
    rfl
  rw [Numeral.display, hzero, if_neg Bool.false_ne_true, Numeral.text, hv.not_isNaN,
    if_neg Bool.false_ne_true, hmagnitude]
  cases sign with
  | negative => exact if_pos (hv.isNegative.mpr rfl)
  | positive => exact if_neg fun hnegative => nomatch hv.isNegative.mp hnegative

/-- **A number on the display is evaluated to itself**, negative zero to zero, and it is displayed in
the same way again. -/
theorem ofText_display (hfinite : v.isFinite = true) (hsecret : Numeral.display v ≠ secretText) :
    ∃ w, ofText (Numeral.display v) = .number w ∧ (w == v) = true ∧
      Numeral.display w = Numeral.display v := by
  cases hzero : v == 0.0 with
  | true =>
    have hdisplay : Numeral.display v = ['0'] := if_pos hzero
    have htext : (⟨0, 0⟩ : Decimal).text = ['0'] := by decide
    have hfloat : (⟨0, 0⟩ : Decimal).toFloat = 0.0 := by decide
    refine ⟨0.0, ?_, BEq.symm hzero, by rw [hdisplay]; decide⟩
    rw [hdisplay, ← htext, ← hfloat]
    exact ofText_text (by rw [hfloat]; decide) (by decide)
  | false =>
    obtain ⟨sign, mantissa, exponent, hv⟩ := Binary.exists_hasParts hfinite hzero
    refine ⟨v, ?_, hv.beq_self, rfl⟩
    have hdisplay := display_of_hasParts hv hzero
    have hshortest := Decimal.shortest_toFloat hfinite hzero
    cases sign with
    | negative =>
      have hvalue : -(Decimal.shortest v).toFloat = v := by
        rw [hshortest]
        exact hv.unique hv.abs.neg
      have hread := ofText_minus_text (d := Decimal.shortest v) (hshortest ▸ hv.abs.isFinite)
        (hvalue.symm ▸ hfinite)
      rw [hvalue] at hread
      exact hdisplay ▸ hread
    | positive =>
      have hvalue : (Decimal.shortest v).toFloat = v := by
        rw [hshortest]
        exact hv.unique hv.abs
      have hread := ofText_text (d := Decimal.shortest v) (hvalue.symm ▸ hfinite)
        (fun htext => hsecret (hdisplay.trans htext))
      rw [hvalue] at hread
      exact hdisplay ▸ hread

end Display

end Evaluation

end PocketCalculator
