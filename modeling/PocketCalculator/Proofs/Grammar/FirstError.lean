import Mathlib.Order.Bounds.Basic
import PocketCalculator.Proofs.Grammar.Position

/-!
# The first token that is wrong

Tokens are the beginning of a sum exactly if they have a way through the places of the grammar
(`viable_iff`): such a way can be completed, and what is complete is read. So the longest beginning
that can still become a sum ends where a reader has failed, and `ofTokens_error_position` says what
each error tells of the tokens there. The limit on levels has no part in this.
-/

namespace PocketCalculator.Grammar

open PocketCalculator.Expr
open EvalError (bind_eq_error)
open Place (walk walk_append walk_trans)

variable {tokens used rest : List Token} {token : Token} {last : Place} {cause : EvalError}

/-! ## Beginnings of sums -/

/-- More tokens can make them a sum, however deep. -/
def Viable (tokens : List Token) : Prop :=
  ∃ more levels tree, Derives .anywhere .sum levels (tokens ++ more) tree

/-- Where tokens are stuck the way ends, and it does not end where a sum may end. -/
theorem Stuck.walk_ne_done (h : Stuck last rest) : last.walk rest ≠ some .done := by
  intro hdone
  cases rest with
  | nil => exact h (Option.some.inj hdone)
  | cons token rest =>
    rw [walk, show last.step token = none from h] at hdone
    cases hdone

/-- A sum is followed by no token that has a place behind it, outside of all groups. -/
theorem stuck_done (hs : Stops .sum (token :: rest)) : Stuck .done (token :: rest) := by
  rw [stops_cons] at hs
  cases token <;> first | rfl | exact absurd (by decide) hs

/-- **A way to where a sum may end is a sum.** It needs no more levels than it has tokens. -/
theorem exists_derives_of_walk (h : Place.start.walk tokens = some .done) :
    ∃ tree, Derives .operand .sum tokens.length tokens tree := by
  have hne : tokens ≠ [] := by
    rintro rfl
    cases h
  cases hread : Expr.sum (inside tokens.length) tokens with
  | error cause =>
    rcases fails_sum (fun n _ => failsLevel n) [] tokens cause hne hread with
      ⟨-, hlevels⟩ | ⟨used, rest, last, rfl, hwalk, hstuck, -⟩
    · exact absurd hlevels (Nat.lt_irrefl _)
    · rw [walk_append, show Place.start.walk used = some last from hwalk] at h
      exact absurd h hstuck.walk_ne_done
  | ok result =>
    obtain ⟨tree, rest⟩ := result
    obtain ⟨used, hused, hd, hs⟩ := sound_sum (fun n _ => soundLevel n) _ _ _ hread
    cases rest with
    | nil =>
      rw [List.append_nil] at hused
      exact ⟨tree, hused ▸ hd⟩
    | cons token rest =>
      have hwalk : Place.start.walk used = some .done := hd.walk [] _ List.mem_cons_self
      rw [hused, walk_append, hwalk] at h
      exact absurd h (stuck_done hs).walk_ne_done

/-- **Beginnings of sums are what has a way through the places.** -/
theorem viable_iff : Viable tokens ↔ ∃ place, Place.start.walk tokens = some place := by
  constructor
  · rintro ⟨more, levels, tree, hd⟩
    have hwalk : Place.start.walk (tokens ++ more) = some .done := hd.walk [] _ List.mem_cons_self
    rw [walk_append, Option.bind_eq_some_iff] at hwalk
    obtain ⟨place, hplace, -⟩ := hwalk
    exact ⟨place, hplace⟩
  · rintro ⟨place, hplace⟩
    obtain ⟨tree, hd⟩ := exists_derives_of_walk (walk_trans hplace (walk_completion place))
    exact ⟨place.completion, _, tree, hd.ofOperand⟩

/-- The length of the longest beginning that can still become a sum. -/
def IsLongestViable (tokens : List Token) (k : Nat) : Prop :=
  IsGreatest {m | m ≤ tokens.length ∧ Viable (tokens.take m)} k

/-- Where tokens are stuck the longest beginning ends. -/
theorem Stuck.isLongestViable (h : Stuck last rest) (hwalk : Place.start.walk used = some last) :
    IsLongestViable (used ++ rest) used.length := by
  refine ⟨⟨?_, ?_⟩, ?_⟩
  · rw [List.length_append]
    exact Nat.le_add_right _ _
  · rw [List.take_left]
    exact viable_iff.mpr ⟨last, hwalk⟩
  · rintro m ⟨hm, hviable⟩
    by_contra hlt
    obtain ⟨n, rfl⟩ := Nat.exists_eq_add_of_lt (Nat.lt_of_not_le hlt)
    rw [Nat.add_assoc, List.take_length_add_append, viable_iff] at hviable
    obtain ⟨place, hplace⟩ := hviable
    rw [walk_append, hwalk] at hplace
    cases rest with
    | nil =>
      rw [List.append_nil] at hm
      omega
    | cons token rest =>
      rw [List.take_succ_cons, Option.bind_some, walk,
        show last.step token = none from h] at hplace
      cases hplace

/-! ## What errors tell -/

/-- What an error tells of the tokens around the place `k`. -/
def PointsAt (tokens : List Token) (k : Nat) : EvalError → Prop
  | .noOperand => tokens = []
  | .unexpectedToken text => ∃ token, tokens[k]? = some token ∧ text = token.text
  | .trailingOperator =>
    (0 < k ∧ ∃ operator : Operator, tokens[k - 1]? = some operator.token) ∧
      (k = tokens.length ∨ tokens[k]? = some .rightParen)
  | .unbalanced =>
    k = tokens.length ∨ tokens[k]? = some .rightParen ∧
      ∃ tree, Derives .anywhere .sum maxLevels (tokens.take k) tree
  | .malformedArgument text =>
    ∃ name : MathFunction, text = name.name ∧
      (0 < k ∧ tokens[k - 1]? = some (.function name) ∨
        1 < k ∧ tokens[k - 2]? = some (.function name) ∧ tokens[k - 1]? = some .leftParen ∧
          tokens[k]? = some .rightParen)
  | _ => False

theorem getElem?_behind (used rest : List Token) : (used ++ rest)[used.length]? = rest.head? := by
  rw [List.getElem?_append_right (Nat.le_refl _), Nat.sub_self, List.head?_eq_getElem?]

theorem Blames.pointsAt (h : Blames used rest cause) :
    PointsAt (used ++ rest) used.length cause := by
  cases h with
  | unexpected hrest =>
    rw [hrest]
    exact ⟨_, getElem?_behind _ _, rfl⟩
  | @trailing front operator hused hrest =>
    refine ⟨⟨by simp [hused], operator, by simp [hused]⟩, ?_⟩
    rcases hrest with rfl | hrest
    · exact .inl (by simp)
    · exact .inr ((getElem?_behind _ _).trans hrest)
  | unclosed hrest => exact .inl (by simp [hrest])
  | @argument front name hused => exact ⟨name, rfl, .inl ⟨by simp [hused], by simp [hused]⟩⟩
  | @noArgument front name hused hrest =>
    refine ⟨name, rfl, .inr ⟨by simp [hused], by simp [hused], ?_, ?_⟩⟩
    · simp [hused]
    · exact (getElem?_behind _ _).trans hrest

/-- **Errors of the syntax point at the first token that is wrong.** If tokens are refused, and not
for their depth, the error tells of the place where the longest beginning ends that can still become
a sum. -/
theorem ofTokens_error_position (h : ofTokens tokens = .error cause) (hdeep : cause ≠ .tooDeep) :
    ∃ k, IsLongestViable tokens k ∧ PointsAt tokens k cause := by
  by_cases hne : tokens = []
  · subst hne
    cases h
    have hstuck : Stuck .start [] := by simp [Stuck, Place.start, Place.done]
    exact ⟨0, @Stuck.isLongestViable [] [] _ hstuck rfl, rfl⟩
  rw [ofTokens_of_ne_nil hne] at h
  rcases bind_eq_error.mp h with hsum | ⟨⟨tree, rest⟩, hsum, hend⟩
  · rcases fails_sum (fun n _ => failsLevel n) [] tokens cause hne hsum with
      ⟨hcause, -⟩ | ⟨used, rest, last, rfl, hwalk, hstuck, hblames⟩
    · exact absurd hcause hdeep
    · exact ⟨used.length, hstuck.isLongestViable hwalk, hblames.pointsAt⟩
  · -- A sum is read, and the token behind it is the first that is wrong.
    obtain ⟨used, rfl, hd, hs⟩ := sound_sum (fun n _ => soundLevel n) _ _ _ hsum
    have hwalk : Place.start.walk used = some .done := hd.walk [] _ List.mem_cons_self
    refine ⟨used.length, ?_, ?_⟩
    · cases rest with
      | nil => cases hend
      | cons token rest => exact (stuck_done hs).isLongestViable hwalk
    · dsimp only at hend
      split at hend
      · cases hend
      · cases hend
        refine .inr ⟨getElem?_behind _ _, tree, ?_⟩
        rw [List.take_left]
        exact hd.ofOperand
      · cases hend
        exact ⟨_, getElem?_behind _ _, rfl⟩

/-- In `|sin(2*)|` the operator lacks its operand where the bracket closes. -/
theorem trailingOperator_in_argument :
    ofTokens [.bar, .function .sin, .leftParen, .number 2, .star, .rightParen, .bar]
        = .error .trailingOperator ∧ EvalError.trailingOperator ≠ .tooDeep ∧
      ∃ k, IsLongestViable
          [.bar, .function .sin, .leftParen, .number 2, .star, .rightParen, .bar] k ∧
        PointsAt [.bar, .function .sin, .leftParen, .number 2, .star, .rightParen, .bar] k
          .trailingOperator :=
  ⟨rfl, by decide, ofTokens_error_position rfl (by decide)⟩

end PocketCalculator.Grammar
