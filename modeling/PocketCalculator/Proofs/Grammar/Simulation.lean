import PocketCalculator.Proofs.Grammar.Completeness
import PocketCalculator.Proofs.Grammar.Descent

/-!
# Steps that do what a reader does

A routine is to give what the reader of its category gives for the tokens that are left, with as many
levels inside it as may still be opened. `Agrees` says so of an outcome, and where the position and
the counter are then. `Simulates` says so of steps, whose calls are taken at their word. It goes
through the parts that routines are made of: one step after the other (`simulates_bind`), a call, a
call on a level of its own (`simulates_askInside`), and a loop, which comes to an end because each of
its turns reads a token (`meets_loop`).
-/

namespace PocketCalculator.Descent

open Grammar (level_eq_around)

/-! ## Outcomes of readings -/

/-- The reader that a routine is, on a level with other levels inside it. -/
def Routine.reader (inner : Option Expr.Level) : Routine → Expr.Reader
  | .sum => Expr.sum inner
  | .product => Expr.product inner
  | .power => Expr.power inner
  | .signed => Expr.signed inner
  | .percentage => Expr.percentageReader inner
  | .primary => Expr.primary inner
  | .group close => Expr.group inner close

/-- The level inside, if there is one left. -/
def State.inside (s : State) : Option Expr.Level :=
  Grammar.inside (Expr.maxLevels - s.depth)

/-- What the reader of a call makes of the tokens that are left. -/
def Call.reading (tokens : List Token) (c : Call) : Except EvalError (Expr × List Token) :=
  c.routine.reader c.inside (tokens.drop c.position)

/-- The levels that an error leaves open: the one for which there was no room. -/
def openLevels : EvalError → Nat
  | .tooDeep => 1
  | _ => 0

/-- A reading from a state has this outcome. If there is a value, tokens were read for it, and the
levels that were opened are left again. -/
inductive Agrees {α : Type} (tokens : List Token) (s : State) :
    Except EvalError (α × List Token) → Outcome α → Prop where
  | ok {a : α} {position : Nat} (forward : s.position < position)
    (within : position ≤ tokens.length) :
    Agrees tokens s (.ok (a, tokens.drop position)) ⟨⟨position, s.depth⟩, .ok a⟩
  | error {cause : EvalError} {position : Nat} (forward : s.position ≤ position) :
    Agrees tokens s (.error cause) ⟨⟨position, s.depth + openLevels cause⟩, .error cause⟩

def Expected (tokens : List Token) (c : Call) (outcome : Outcome Expr) : Prop :=
  Agrees tokens c.toState (c.reading tokens) outcome

section Agrees

variable {α : Type} {tokens rest : List Token} {s t : State}

theorem Agrees.ok_of_drop {a : α} {position : Nat} (hrest : tokens.drop position = rest)
    (forward : s.position < position) (within : position ≤ tokens.length) :
    Agrees tokens s (.ok (a, rest)) ⟨⟨position, s.depth⟩, .ok a⟩ := by
  rw [← hrest]
  exact .ok forward within

theorem Agrees.error_at {cause : EvalError} (hcause : openLevels cause = 0)
    (hposition : s.position ≤ t.position) (hdepth : t.depth = s.depth) :
    Agrees tokens s (.error cause : Except EvalError (α × List Token)) ⟨t, .error cause⟩ := by
  have h : Agrees tokens s (.error cause : Except EvalError (α × List Token))
      ⟨⟨t.position, s.depth + openLevels cause⟩, .error cause⟩ := .error hposition
  rwa [hcause, Nat.add_zero, ← hdepth] at h

/-- What was read from a later state on was read from this one on. -/
theorem Agrees.of_later {result : Except EvalError (α × List Token)} {outcome : Outcome α}
    (h : Agrees tokens t result outcome) (hposition : s.position ≤ t.position)
    (hdepth : t.depth = s.depth) : Agrees tokens s result outcome := by
  cases h with
  | ok forward within =>
    rw [hdepth]
    exact .ok (Nat.lt_of_le_of_lt hposition forward) within
  | error forward =>
    rw [hdepth]
    exact .error (Nat.le_trans hposition forward)

end Agrees

/-! ## Steps without calls -/

section Tokens

variable {α β : Type} {tokens rest : List Token} {token : Token} {s : State} {position : Nat}

theorem lt_of_drop (h : tokens.drop position = token :: rest) : position < tokens.length := by
  have hlength := congrArg List.length h
  rw [List.length_drop, List.length_cons] at hlength
  omega

theorem drop_succ (h : tokens.drop position = token :: rest) :
    tokens.drop (position + 1) = rest := by
  rw [← List.drop_drop, h]
  rfl

theorem bind_apply (x : Procedure α) (f : α → Procedure β) :
    (x >>= f).steps s = (x.steps s).andThen (goOn f) :=
  rfl

theorem goOn_ok {a : α} (f : α → Procedure β) : goOn f ⟨s, .ok a⟩ = (f a).steps s :=
  rfl

theorem peek_bind (f : Option Token → Procedure β) :
    (peek tokens >>= f).steps s = (f (tokens.drop s.position).head?).steps s := by
  rw [List.head?_drop]
  rfl

theorem advance_bind (f : Unit → Procedure β) :
    (advance >>= f).steps s = (f ()).steps ⟨s.position + 1, s.depth⟩ :=
  rfl

theorem next_bind_nil (h : tokens.drop s.position = []) (f : Option Token → Procedure β) :
    (next tokens >>= f).steps s = (f none).steps s := by
  rw [bind_apply, next, peek_bind, h]
  rfl

theorem next_bind_cons (h : tokens.drop s.position = token :: rest)
    (f : Option Token → Procedure β) :
    (next tokens >>= f).steps s = (f (some token)).steps ⟨s.position + 1, s.depth⟩ := by
  rw [bind_apply, next, peek_bind, h]
  rfl

/-- Behind an operator both go on, and then there is a token, or both complain. -/
theorem expectOperand_cases (tokens : List Token) (s : State) :
    Expr.expectOperand (tokens.drop s.position) = .error .trailingOperator ∧
        (expectOperand tokens).steps s = .done ⟨s, .error .trailingOperator⟩ ∨
      Expr.expectOperand (tokens.drop s.position) = .ok () ∧
        (expectOperand tokens).steps s = .done ⟨s, .ok ()⟩ ∧ s.position < tokens.length := by
  rw [expectOperand, peek_bind]
  cases h : tokens.drop s.position with
  | nil => exact .inl ⟨rfl, rfl⟩
  | cons token rest =>
    have hlt := lt_of_drop h
    cases token with
    | rightParen => exact .inl ⟨rfl, rfl⟩
    | _ => exact .inr ⟨rfl, rfl, hlt⟩

end Tokens

/-! ## Steps that agree with a reading -/

section Simulates

variable {α β : Type} {tokens : List Token} {allowed : Call → Prop} {s t : State}

/-- The steps end as a reading from `s` does. -/
abbrev Simulates (tokens : List Token) (allowed : Call → Prop) (s : State)
    (result : Except EvalError (α × List Token)) (steps : Steps α) : Prop :=
  steps.Meets allowed (Expected tokens) (Agrees tokens s result)

theorem simulates_bind {x : Procedure α} {f : α → Procedure β}
    {result : Except EvalError (α × List Token)}
    {next : α × List Token → Except EvalError (β × List Token)}
    (hx : Simulates tokens allowed s result (x.steps t))
    (hf : ∀ a position, s.position < position → position ≤ tokens.length →
      Simulates tokens allowed s (next (a, tokens.drop position)) ((f a).steps ⟨position, s.depth⟩)) :
    Simulates tokens allowed s (result >>= next) ((x >>= f).steps t) := by
  refine Steps.Meets.andThen (hx.mono fun outcome h => ?_)
  cases h with
  | ok forward within => exact hf _ _ forward within
  | error forward => exact .error forward

theorem simulates_map (f : α → β) {x : Procedure α} {result : Except EvalError (α × List Token)}
    (hx : Simulates tokens allowed s result (x.steps t)) :
    Simulates tokens allowed s (result >>= fun r => .ok (f r.1, r.2))
      ((x >>= fun a => pure (f a)).steps t) :=
  simulates_bind hx fun _ _ forward within => .ok forward within

theorem meets_ask_bind {routine : Routine} {f : Expr → Procedure β}
    {expected : Call → Outcome Expr → Prop} {wanted : Outcome β → Prop}
    (hcall : allowed ⟨t, routine⟩)
    (hf : ∀ outcome, expected ⟨t, routine⟩ outcome →
      (goOn f outcome).Meets allowed expected wanted) :
    ((ask routine >>= f).steps t).Meets allowed expected wanted :=
  ⟨hcall, hf⟩

theorem simulates_ask {routine : Routine} (hcall : allowed ⟨t, routine⟩)
    (hposition : s.position ≤ t.position) (hdepth : t.depth = s.depth) :
    Simulates tokens allowed s (Call.reading tokens ⟨t, routine⟩) ((ask routine).steps t) :=
  ⟨hcall, fun _ h => h.of_later hposition hdepth⟩

theorem simulates_expectOperand {f : Unit → Procedure α}
    {result : Except EvalError (α × List Token)} (hposition : s.position ≤ t.position)
    (hdepth : t.depth = s.depth)
    (hf : t.position < tokens.length → Simulates tokens allowed s result ((f ()).steps t)) :
    Simulates tokens allowed s (Expr.expectOperand (tokens.drop t.position) >>= fun _ => result)
      ((expectOperand tokens >>= f).steps t) := by
  rw [bind_apply]
  rcases expectOperand_cases tokens t with ⟨hread, hsteps⟩ | ⟨hread, hsteps, hlt⟩
  · rw [hread, hsteps]
    exact .error_at rfl hposition hdepth
  · rw [hread, hsteps]
    exact hf hlt

/-! ## Levels -/

/-- Where a level is left, the call runs with the counter one higher, and the counter is lowered
whatever comes of it. -/
theorem askInside_of_lt {routine : Routine} (h : s.depth < Expr.maxLevels) :
    (askInside routine).steps s = .call ⟨⟨s.position, s.depth + 1⟩, routine⟩ fun outcome =>
      (leave >>= fun _ => settle outcome.result).steps outcome.toState := by
  have henter : enter.steps s = .done ⟨⟨s.position, s.depth + 1⟩, .ok ()⟩ :=
    if_neg (Nat.not_lt_of_le h)
  rw [askInside, bind_apply, henter]
  rfl

theorem askInside_of_full {routine : Routine} (h : s.depth = Expr.maxLevels) :
    (askInside routine).steps s = .done ⟨⟨s.position, s.depth + 1⟩, .error .tooDeep⟩ := by
  have henter : enter.steps s = .done ⟨⟨s.position, s.depth + 1⟩, .error .tooDeep⟩ :=
    if_pos (Nat.lt_succ_of_le (Nat.le_of_eq h.symm))
  rw [askInside, bind_apply, henter]
  rfl

/-- The counter does not go below zero: no call leaves it lower than it found it. -/
theorem leave_settle {outcome : Outcome Expr} {result : Except EvalError (Expr × List Token)}
    (h : Agrees tokens ⟨s.position, s.depth + 1⟩ result outcome) :
    ∃ left, (leave >>= fun _ => settle outcome.result).steps outcome.toState = .done left ∧
      Agrees tokens s result left := by
  cases h with
  | @ok e position forward within =>
    exact ⟨⟨⟨position, s.depth⟩, .ok e⟩, rfl, .ok forward within⟩
  | @error cause position forward =>
    refine ⟨⟨⟨position, s.depth + openLevels cause⟩, .error cause⟩, ?_, .error forward⟩
    rw [bind_apply, leave, Nat.add_right_comm]
    rfl

theorem simulates_askInside {routine : Routine} (read : Expr.Level → Expr.Reader)
    (hread : ∀ inner, read (.around inner) = routine.reader inner)
    (hcall : t.depth < Expr.maxLevels → allowed ⟨⟨t.position, t.depth + 1⟩, routine⟩)
    (hfits : t.depth ≤ Expr.maxLevels) (hposition : s.position ≤ t.position)
    (hdepth : t.depth = s.depth) :
    Simulates tokens allowed s
      (Expr.enter t.inside >>= fun level => read level (tokens.drop t.position))
      ((askInside routine).steps t) := by
  rcases Nat.lt_or_eq_of_le hfits with hlt | hfull
  · have hlevels : Expr.maxLevels - t.depth = Expr.maxLevels - (t.depth + 1) + 1 := by omega
    have hreading : (Expr.enter t.inside >>= fun level => read level (tokens.drop t.position)) =
        Call.reading tokens ⟨⟨t.position, t.depth + 1⟩, routine⟩ := by
      rw [State.inside, hlevels, Call.reading, ← hread, State.inside, ← level_eq_around]
      rfl
    rw [hreading, askInside_of_lt hlt]
    refine ⟨hcall hlt, fun outcome h => ?_⟩
    obtain ⟨left, hdone, hagrees⟩ := leave_settle h
    simp only [hdone]
    exact hagrees.of_later hposition hdepth
  · -- No level is left, and the counter stays at one more than there may be.
    rw [askInside_of_full hfull, State.inside, hfull, Nat.sub_self, ← hfull, hdepth]
    exact Agrees.error hposition

/-! ## Loops -/

/-- A turn ends the loop, or the loop goes on behind where it was. -/
def TurnEnds {σ : Type} (keeps : σ → State → Prop) (wanted : Outcome σ → Prop) (a : σ) (s : State)
    (outcome : Outcome (Option σ)) : Prop :=
  match outcome.result with
  | .ok none => wanted ⟨outcome.toState, .ok a⟩
  | .ok (some b) => keeps b outcome.toState ∧ s.position < outcome.position
  | .error cause => wanted ⟨outcome.toState, .error cause⟩

/-- **A loop ends** if each of its turns reads a token, for there are more turns than tokens. -/
theorem meets_loop {σ : Type} {turn : σ → Procedure (Option σ)} (keeps : σ → State → Prop)
    {wanted : Outcome σ → Prop} {expected : Call → Outcome Expr → Prop}
    (hwithin : ∀ a s, keeps a s → s.position ≤ tokens.length)
    (hturn : ∀ a s, keeps a s →
      ((turn a).steps s).Meets allowed expected (TurnEnds keeps wanted a s))
    {turns : Nat} {a : σ} (hkeeps : keeps a s) (hturns : tokens.length < s.position + turns) :
    ((loop turn turns a).steps s).Meets allowed expected wanted := by
  induction turns generalizing a s with
  | zero => exact absurd hturns (Nat.not_lt_of_le (hwithin a s hkeeps))
  | succ turns ih =>
    refine Steps.Meets.andThen ((hturn a s hkeeps).mono fun outcome h => ?_)
    obtain ⟨after, result⟩ := outcome
    cases result with
    | error cause => exact h
    | ok b? =>
      cases b? with
      | none => exact h
      | some b =>
        obtain ⟨hb, hforward⟩ := h
        have hleft : tokens.length < after.position + turns := by
          dsimp only at hforward
          omega
        exact ih hb hleft

end Simulates

end PocketCalculator.Descent
