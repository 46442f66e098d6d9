import PocketCalculator.Editor
import PocketCalculator.Proofs.Evaluation.Displayed

/-!
# Evaluating what an evaluation has shown

After an evaluation is committed the editor shows its result, and to evaluate that again changes
nothing (`settled_iff`). An overlay stands for the result that it covers the entry with, and the text of
a number is read as that number. The one number that is not settled is the one whose text has a fixed
answer.
-/

namespace PocketCalculator

/-- The results say the same. Numbers are compared as such, so the sign of zero does not count. -/
def Evaluation.Agrees : Evaluation → Evaluation → Prop
  | .number v, .number w => (v == w) = true
  | result, other => result = other

namespace Editor

open Evaluation (Agrees secretText)

/-- The editor after its evaluation is committed. -/
def settle (s : Editor) : Editor :=
  s.commit s.evaluate

variable {s : Editor} {v : Float}

/-- A number comes from the entry, and it is a value. -/
theorem isFinite_of_evaluate (h : s.evaluate = .number v) : v.isFinite = true := by
  unfold evaluate at h
  split at h
  · next overlay _ => cases overlay <;> cases h
  · unfold Evaluation.ofText at h
    split at h
    · cases h
    · dsimp only at h
      split at h
      · cases hvalue : Evaluation.valueOf (Glyph.canonicalText s.buffer.chars) with
        | error cause =>
          rw [hvalue] at h
          cases h
        | ok w =>
          rw [hvalue] at h
          obtain rfl := Evaluation.number.inj h
          obtain ⟨tokens, -, htokens⟩ := EvalError.bind_eq_ok.mp hvalue
          obtain ⟨e, -, heval⟩ := EvalError.bind_eq_ok.mp htokens
          exact Expr.isFinite_of_eval heval
      · cases h

/-- The entry in which a number is shown. -/
theorem evaluate_commit_number (s : Editor) (v : Float) :
    (s.commit (.number v)).evaluate = .ofText (Numeral.display v) := by
  show Evaluation.ofText (Buffer.ofChars (Numeral.display v)).chars = _
  rw [Buffer.chars_ofChars (Numeral.display_ne_nil v)]

/-- A number that is displayed in the same way is committed in the same way. -/
theorem commit_number_again {w : Float} (h : Numeral.display w = Numeral.display v) :
    (s.commit (.number v)).commit (.number w) = s.commit (.number v) := by
  show { s.fill (Numeral.display w) with bracketCloses := false, overlay := none }
    = { s.fill (Numeral.display v) with bracketCloses := false, overlay := none }
  rw [h]

section Number

variable (hresult : s.evaluate = .number v)

include hresult

theorem settle_eq : s.settle = s.commit (.number v) := by
  rw [settle, hresult]

theorem evaluate_settle : s.settle.evaluate = .ofText (Numeral.display v) := by
  rw [settle_eq hresult, evaluate_commit_number]

/-- The number is read as itself, and shown as before. -/
theorem settled_number (hsecret : Numeral.display v ≠ secretText) :
    s.settle.evaluate.Agrees (.number v) ∧ s.settle.settle = s.settle := by
  obtain ⟨w, hread, hbeq, hdisplay⟩ :=
    Evaluation.ofText_display (isFinite_of_evaluate hresult) hsecret
  have hagain : s.settle.evaluate = .number w := (evaluate_settle hresult).trans hread
  constructor
  · rw [hagain]
    exact hbeq
  · show s.settle.commit s.settle.evaluate = s.settle
    rw [hagain, settle_eq hresult]
    exact commit_number_again hdisplay

end Number

/-- **An evaluation is settled when it is shown.** To evaluate again gives the same result and
changes nothing, unless the result is a number whose text has a fixed answer instead of a value. -/
theorem settled_iff (s : Editor) :
    (s.settle.evaluate.Agrees s.evaluate ∧ s.settle.settle = s.settle) ↔
      ¬ ∃ v, s.evaluate = .number v ∧ Numeral.display v = secretText := by
  cases hresult : s.evaluate with
  | literal text =>
    have hsettle : s.settle = { s with overlay := some (.literal text) } := by
      rw [settle, hresult]
      rfl
    refine iff_of_true ?_ nofun
    rw [hsettle]
    exact ⟨rfl, rfl⟩
  | error cause =>
    have hsettle : s.settle = { s with overlay := some (.error cause) } := by
      rw [settle, hresult]
      rfl
    refine iff_of_true ?_ nofun
    rw [hsettle]
    exact ⟨rfl, rfl⟩
  | number v =>
    by_cases hsecret : Numeral.display v = secretText
    · refine iff_of_false ?_ fun hnone => hnone ⟨v, rfl, hsecret⟩
      rintro ⟨hagrees, -⟩
      rw [evaluate_settle hresult, hsecret] at hagrees
      cases hagrees
    · refine iff_of_true (settled_number hresult hsecret) ?_
      rintro ⟨w, hw, hdisplay⟩
      obtain rfl := Evaluation.number.inj hw
      exact hsecret hdisplay

end Editor

end PocketCalculator
