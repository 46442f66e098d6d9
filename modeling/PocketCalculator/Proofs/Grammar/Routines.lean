import PocketCalculator.Proofs.Grammar.Simulation

/-!
# The routines do what the readers do

One theorem per routine: it agrees with the reader of its category, if its calls do. The hypotheses
name these calls, with what is known where they are made: how far the position has come, whether a
token is left, and whether a level is left.
-/

namespace PocketCalculator.Descent

open Grammar (primary_leftParen span_percents)

variable {tokens : List Token} {allowed : Call → Prop} {s t : State}

/-! ## Chains -/

section Chain

/-- The links that are read, before what the reader makes of the other tokens, are what it makes of
all of them. -/
structure LinksFrom (tokens : List Token) (s : State) (operator? : Token → Option Operator)
    (read : Expr.Reader) (result : Except EvalError (List (Operator × Expr) × List Token))
    (links : List (Operator × Expr)) (t : State) : Prop where
  forward : s.position < t.position
  within : t.position ≤ tokens.length
  depth : t.depth = s.depth
  rest : ∃ budget, (tokens.drop t.position).length ≤ budget.length ∧
    Expr.readLinks operator? read links.reverse budget (tokens.drop t.position) = result

variable {operator? : Token → Option Operator} {operand : Routine} {read : Expr.Reader}
  {result : Except EvalError (List (Operator × Expr) × List Token)}
  {links : List (Operator × Expr)}

theorem readLinks_nil {budget : List Token} :
    Expr.readLinks operator? read links budget [] = .ok (links.reverse, []) := by
  cases budget <;> rfl

theorem readLinks_none {budget rest : List Token} {token : Token} (h : operator? token = none) :
    Expr.readLinks operator? read links budget (token :: rest) =
      .ok (links.reverse, token :: rest) := by
  cases budget with
  | nil => rfl
  | cons _ budget => rw [Expr.readLinks, h]

/-- A link whose operator is read. Its operand is asked for. -/
theorem meets_operand {budget : List Token} {operator : Operator} {position : Nat}
    (hread : read = operand.reader s.inside) (hcall : allowed ⟨⟨position + 1, s.depth⟩, operand⟩)
    (hforward : s.position < position)
    (hbudget : (tokens.drop (position + 1)).length ≤ budget.length)
    (hlinks : (read (tokens.drop (position + 1)) >>= fun r =>
      Expr.readLinks operator? read ((operator, r.1) :: links.reverse) budget r.2) = result) :
    ((ask operand >>= fun e => pure (some (links ++ [(operator, e)]))).steps
        ⟨position + 1, s.depth⟩).Meets allowed (Expected tokens)
      (TurnEnds (LinksFrom tokens s operator? read result) (Agrees tokens s result) links
        ⟨position, s.depth⟩) := by
  refine meets_ask_bind hcall fun outcome h => ?_
  have hagrees : Agrees tokens ⟨position + 1, s.depth⟩ (read (tokens.drop (position + 1)))
      outcome := hread ▸ h
  clear h
  -- What the reader of the operand gives decides what the reader of the links gives.
  generalize read (tokens.drop (position + 1)) = reading at hlinks hagrees
  cases hagrees with
  | error hmore =>
    rw [← hlinks]
    exact .error (Nat.le_trans (Nat.le_of_lt (Nat.lt_succ_of_lt hforward)) hmore)
  | ok hmore hend =>
    have hturn := Nat.lt_of_succ_lt hmore
    refine ⟨⟨Nat.lt_trans hforward hturn, hend, rfl, budget, ?_, ?_⟩, hturn⟩
    · rw [List.length_drop] at hbudget ⊢
      exact Nat.le_trans (Nat.sub_le_sub_left (Nat.le_of_lt hmore) _) hbudget
    · rw [List.reverse_append]
      exact hlinks

theorem meets_link (hread : read = operand.reader s.inside)
    (hcall : ∀ position, s.position < position → position < tokens.length →
      allowed ⟨⟨position, s.depth⟩, operand⟩)
    (h : LinksFrom tokens s operator? read result links t) :
    ((link tokens operator? operand links).steps t).Meets allowed (Expected tokens)
      (TurnEnds (LinksFrom tokens s operator? read result) (Agrees tokens s result) links t) := by
  obtain ⟨hforward, hwithin, hdepth, budget, hbudget, hlinks⟩ := h
  obtain ⟨position, depth⟩ := t
  obtain rfl : depth = s.depth := hdepth
  rw [link, peek_bind]
  cases hrest : tokens.drop position with
  | nil =>
    rw [hrest, readLinks_nil, List.reverse_reverse] at hlinks
    rw [← hlinks]
    exact Agrees.ok_of_drop hrest hforward hwithin
  | cons token rest =>
    rw [hrest] at hbudget hlinks
    cases hoperator : operator? token with
    | none =>
      rw [readLinks_none hoperator, List.reverse_reverse] at hlinks
      rw [← hlinks, List.head?_cons, Option.bind_some, hoperator]
      exact Agrees.ok_of_drop hrest hforward hwithin
    | some operator =>
      -- The budget is not used up, for it has as many members as there are tokens left.
      obtain ⟨_, budget, rfl⟩ := List.exists_cons_of_length_pos (Nat.lt_of_lt_of_le (by simp) hbudget)
      obtain rfl : tokens.drop (position + 1) = rest := drop_succ hrest
      have hbehind : s.position < position + 1 := Nat.lt_succ_of_lt hforward
      rw [Expr.readLinks, hoperator] at hlinks
      rw [List.head?_cons, Option.bind_some, hoperator]
      dsimp only at hlinks ⊢
      rw [advance_bind, bind_apply]
      rcases expectOperand_cases tokens ⟨position + 1, s.depth⟩ with
        ⟨hexpect, hsteps⟩ | ⟨hexpect, hsteps, hlt⟩
      · rw [hsteps, ← hlinks, hexpect]
        exact .error_at rfl (Nat.le_of_lt hbehind) rfl
      · rw [hexpect] at hlinks
        rw [hsteps]
        exact meets_operand hread (hcall _ hbehind hlt) hforward (Nat.le_of_succ_le_succ hbudget)
          hlinks

theorem simulates_chain (hread : read = operand.reader s.inside) (hfirst : allowed ⟨s, operand⟩)
    (hcall : ∀ position, s.position < position → position < tokens.length →
      allowed ⟨⟨position, s.depth⟩, operand⟩) :
    Simulates tokens allowed s (Expr.readChain operator? read (tokens.drop s.position))
      ((chain tokens operator? operand).steps s) := by
  have hask : Simulates tokens allowed s (operand.reader s.inside (tokens.drop s.position))
      ((ask operand).steps s) := simulates_ask hfirst (Nat.le_refl s.position) rfl
  refine simulates_bind (hread ▸ hask) fun first position forward within => ?_
  have hkeeps : LinksFrom tokens s operator? read
      (Expr.readLinks operator? read [] (tokens.drop position) (tokens.drop position)) []
      ⟨position, s.depth⟩ := ⟨forward, within, rfl, _, Nat.le_refl _, rfl⟩
  exact simulates_map (fun links => first.chained links) (meets_loop _ (fun _ _ h => h.within)
    (fun _ _ h => meets_link hread hcall h) hkeeps (Nat.lt_add_left _ (Nat.lt_succ_self _)))

end Chain

/-! ## Percentages -/

/-- The percent signs that are counted, and what is still there. -/
structure PercentsFrom (tokens : List Token) (s : State) (row : List Token) (count : Nat)
    (t : State) : Prop where
  forward : s.position < t.position
  within : t.position ≤ tokens.length
  depth : t.depth = s.depth
  row : row = List.replicate count .percent ++ tokens.drop t.position

theorem meets_percentSign {row : List Token} {count : Nat}
    (h : PercentsFrom tokens s row count t) :
    ((percentSign tokens count).steps t).Meets allowed (Expected tokens)
      (TurnEnds (PercentsFrom tokens s row)
        (Agrees tokens s (.ok ((row.takeWhile (· = .percent)).length,
          row.dropWhile (· = .percent)))) count t) := by
  obtain ⟨hforward, hwithin, hdepth, hrow⟩ := h
  obtain ⟨position, depth⟩ := t
  obtain rfl : depth = s.depth := hdepth
  rw [percentSign, peek_bind]
  by_cases hpercent : (tokens.drop position).head? = some .percent
  · obtain ⟨rest, hrest⟩ := List.head?_eq_some_iff.mp hpercent
    rw [if_pos hpercent]
    refine ⟨⟨Nat.lt_succ_of_lt hforward, lt_of_drop hrest, rfl, ?_⟩, Nat.lt_succ_self _⟩
    rw [hrow, hrest, drop_succ hrest]
    simp [List.replicate_succ']
  · have hstops : Grammar.Stops .percentage (tokens.drop position) := by
      intro token htoken hmem
      rw [List.mem_singleton.mp hmem] at htoken
      exact hpercent htoken
    obtain ⟨htake, hdrop⟩ := span_percents count hstops
    rw [if_neg hpercent, hrow, htake, hdrop, List.length_replicate]
    exact Agrees.ok hforward hwithin

theorem simulates_percentage (hcall : allowed ⟨s, .primary⟩) :
    Simulates tokens allowed s (Expr.percentageReader s.inside (tokens.drop s.position))
      ((percentage tokens).steps s) := by
  refine simulates_bind (simulates_ask hcall (Nat.le_refl _) rfl)
    fun e position forward within => ?_
  have hkeeps : PercentsFrom tokens s (tokens.drop position) 0 ⟨position, s.depth⟩ :=
    ⟨forward, within, rfl, rfl⟩
  exact simulates_map (fun count => e.percentage count) (meets_loop _ (fun _ _ h => h.within)
    (fun _ _ h => meets_percentSign h) hkeeps (Nat.lt_add_left _ (Nat.lt_succ_self _)))

/-! ## Powers and signs -/

theorem simulates_power (hfits : s.depth ≤ Expr.maxLevels) (hfirst : allowed ⟨s, .signed⟩)
    (hcall : ∀ position, s.position < position → position < tokens.length →
      s.depth < Expr.maxLevels → allowed ⟨⟨position, s.depth + 1⟩, .power⟩) :
    Simulates tokens allowed s (Expr.power s.inside (tokens.drop s.position))
      ((power tokens).steps s) := by
  refine simulates_bind (simulates_ask hfirst (Nat.le_refl _) rfl)
    fun base position forward within => ?_
  rw [peek_bind]
  dsimp only
  split
  · next rest hrest =>
    obtain rfl : tokens.drop (position + 1) = rest := drop_succ hrest
    have hbehind : s.position < position + 1 := Nat.lt_succ_of_lt forward
    rw [hrest, List.head?_cons, if_pos rfl, advance_bind]
    refine simulates_expectOperand (t := ⟨position + 1, s.depth⟩) (Nat.le_of_lt hbehind) rfl
      fun hlt => ?_
    rw [← bind_assoc]
    exact simulates_map (base.pow ·) (simulates_askInside (t := ⟨position + 1, s.depth⟩)
      Expr.Level.power (fun _ => rfl) (hcall _ hbehind hlt) hfits (Nat.le_of_lt hbehind) rfl)
  · next hne =>
    have hcaret : (tokens.drop position).head? ≠ some .caret := by
      intro hhead
      obtain ⟨rest, hrest⟩ := List.head?_eq_some_iff.mp hhead
      exact hne rest hrest
    rw [if_neg hcaret]
    exact .ok forward within

theorem simulates_behindSign (hfits : s.depth ≤ Expr.maxLevels)
    (hcall : s.position + 1 < tokens.length → s.depth < Expr.maxLevels →
      allowed ⟨⟨s.position + 1, s.depth + 1⟩, .signed⟩) :
    Simulates tokens allowed s
      (Expr.expectOperand (tokens.drop (s.position + 1)) >>= fun _ =>
        Expr.enter s.inside >>= fun level => level.signed (tokens.drop (s.position + 1)))
      ((behindSign tokens).steps s) := by
  rw [behindSign, advance_bind]
  refine simulates_expectOperand (t := ⟨s.position + 1, s.depth⟩) (Nat.le_succ _) rfl fun hlt => ?_
  exact simulates_askInside (t := ⟨s.position + 1, s.depth⟩) Expr.Level.signed (fun _ => rfl)
    (hcall hlt) hfits (Nat.le_succ _) rfl

theorem simulates_signed (hfits : s.depth ≤ Expr.maxLevels) (hfirst : allowed ⟨s, .percentage⟩)
    (hcall : s.position + 1 < tokens.length → s.depth < Expr.maxLevels →
      allowed ⟨⟨s.position + 1, s.depth + 1⟩, .signed⟩) :
    Simulates tokens allowed s (Expr.signed s.inside (tokens.drop s.position))
      ((signed tokens).steps s) := by
  have hask : Simulates tokens allowed s
      (Expr.percentageReader s.inside (tokens.drop s.position)) ((ask .percentage).steps s) :=
    simulates_ask hfirst (Nat.le_refl _) rfl
  rw [signed, peek_bind]
  cases hrest : tokens.drop s.position with
  | nil => rwa [hrest] at hask
  | cons token rest =>
    obtain rfl : tokens.drop (s.position + 1) = rest := drop_succ hrest
    rw [hrest] at hask
    cases token with
    | minus =>
      have h := simulates_map Expr.neg (simulates_behindSign hfits hcall)
      simp only [bind_assoc] at h
      exact h
    | plus => exact simulates_behindSign hfits hcall
    | _ => exact hask

/-! ## Groups and primaries -/

section Readers

variable {inner : Option Expr.Level} {rest : List Token}

theorem group_of_ne_nil {close : Token} (h : rest ≠ []) :
    Expr.group inner close rest = (Expr.enter inner >>= fun level => level.sum rest) >>= fun r =>
      match r.2 with
      | [] => .error .unbalanced
      | token :: rest =>
        if token = close then .ok (r.1, rest) else .error (.unexpectedToken token.text) := by
  obtain ⟨token, more, rfl⟩ := List.exists_cons_of_ne_nil h
  rw [bind_assoc]
  rfl

theorem argument_leftParen {name : MathFunction} (h : rest.head? ≠ some .rightParen) :
    Expr.argument inner name (.leftParen :: rest) =
      Expr.group inner .rightParen rest >>= fun r => .ok (.call name r.1, r.2) := by
  cases rest with
  | nil => rfl
  | cons token rest =>
    cases token with
    | rightParen => exact absurd rfl h
    | _ => rfl

theorem argument_of_ne {name : MathFunction} (h : rest.head? ≠ some .leftParen) :
    Expr.argument inner name rest = .error (.malformedArgument name.name) := by
  cases rest with
  | nil => rfl
  | cons token rest =>
    cases token with
    | leftParen => exact absurd rfl h
    | _ => rfl

theorem primary_bracket (h : rest.head? ≠ some .rightParen) :
    Expr.primary inner (.leftParen :: rest) = Expr.group inner .rightParen rest := by
  cases rest with
  | nil => rfl
  | cons token rest => exact primary_leftParen fun htoken => h (congrArg some htoken)

end Readers

theorem simulates_group {close : Token} (hfits : s.depth ≤ Expr.maxLevels)
    (hcall : s.position < tokens.length → s.depth < Expr.maxLevels →
      allowed ⟨⟨s.position, s.depth + 1⟩, .sum⟩) :
    Simulates tokens allowed s (Expr.group s.inside close (tokens.drop s.position))
      ((group tokens close).steps s) := by
  rw [group, peek_bind]
  by_cases hrest : tokens.drop s.position = []
  · rw [hrest, List.head?_nil, if_pos rfl]
    exact .error_at rfl (Nat.le_refl _) rfl
  · have hlt : s.position < tokens.length := Nat.lt_of_not_le (mt List.drop_of_length_le hrest)
    rw [group_of_ne_nil hrest, if_neg (mt List.head?_eq_none_iff.mp hrest)]
    refine simulates_bind (simulates_askInside Expr.Level.sum (fun _ => rfl) (hcall hlt) hfits
      (Nat.le_refl _) rfl) fun e position forward within => ?_
    cases hclose : tokens.drop position with
    | nil =>
      rw [next_bind_nil hclose]
      exact .error_at rfl (Nat.le_of_lt forward) rfl
    | cons token rest =>
      rw [next_bind_cons hclose]
      dsimp only
      split
      · exact .ok_of_drop (drop_succ hclose) (Nat.lt_succ_of_lt forward) (lt_of_drop hclose)
      · exact .error_at rfl (Nat.le_of_lt (Nat.lt_succ_of_lt forward)) rfl

/-- The state is that behind the name of the function. -/
theorem simulates_argument (name : MathFunction) (hposition : s.position ≤ t.position)
    (hdepth : t.depth = s.depth) (hcall : allowed ⟨⟨t.position + 1, t.depth⟩, .group .rightParen⟩) :
    Simulates tokens allowed s (Expr.argument t.inside name (tokens.drop t.position))
      ((argument tokens name).steps t) := by
  have hbehind : s.position ≤ t.position + 1 := Nat.le_succ_of_le hposition
  rw [argument]
  cases hrest : tokens.drop t.position with
  | nil =>
    rw [next_bind_nil hrest]
    exact .error_at rfl hposition hdepth
  | cons token rest =>
    obtain rfl : tokens.drop (t.position + 1) = rest := drop_succ hrest
    rw [next_bind_cons hrest]
    by_cases hparen : token = .leftParen
    · rw [hparen, if_pos rfl, peek_bind]
      by_cases hclose : (tokens.drop (t.position + 1)).head? = some .rightParen
      · obtain ⟨more, hmore⟩ := List.head?_eq_some_iff.mp hclose
        rw [if_pos hclose, hmore]
        exact .error_at rfl hbehind hdepth
      · rw [if_neg hclose, argument_leftParen hclose]
        exact simulates_map (Expr.call name) (simulates_ask hcall hbehind hdepth)
    · have hne : (token :: tokens.drop (t.position + 1)).head? ≠ some .leftParen :=
        fun h => hparen (Option.some.inj h)
      rw [argument_of_ne hne]
      rw [List.head?_cons] at hne
      rw [if_neg hne]
      exact .error_at rfl hbehind hdepth

/-- The state is that behind the root sign. -/
theorem simulates_radicand (hfits : t.depth ≤ Expr.maxLevels) (hposition : s.position ≤ t.position)
    (hdepth : t.depth = s.depth) (hcall : allowed ⟨⟨t.position + 1, t.depth⟩, .group .rightParen⟩)
    (hinside : t.position < tokens.length → t.depth < Expr.maxLevels →
      allowed ⟨⟨t.position, t.depth + 1⟩, .percentage⟩) :
    Simulates tokens allowed s (Expr.radicand t.inside (tokens.drop t.position))
      ((radicand tokens).steps t) := by
  have hargument : Simulates tokens allowed s
      (Expr.argument t.inside .sqrt (tokens.drop t.position)) ((argument tokens .sqrt).steps t) :=
    simulates_argument .sqrt hposition hdepth hcall
  rw [radicand, peek_bind]
  cases hrest : tokens.drop t.position with
  | nil => exact .error_at rfl hposition hdepth
  | cons token rest =>
    have hpercentage : Simulates tokens allowed s
        (Expr.enter t.inside >>= fun level => level.percentage (tokens.drop t.position))
        ((askInside .percentage).steps t) :=
      simulates_askInside Expr.Level.percentage (fun _ => rfl) (hinside (lt_of_drop hrest)) hfits
        hposition hdepth
    have hroot := simulates_map (Expr.call .sqrt) hpercentage
    rw [bind_assoc, hrest] at hroot
    rw [hrest] at hargument
    cases token with
    | leftParen => exact hargument
    | _ => exact hroot

theorem simulates_primary (hfits : s.depth ≤ Expr.maxLevels)
    (hgroup : ∀ position close, s.position < position → allowed ⟨⟨position, s.depth⟩, .group close⟩)
    (hinside : s.position + 1 < tokens.length → s.depth < Expr.maxLevels →
      allowed ⟨⟨s.position + 1, s.depth + 1⟩, .percentage⟩) :
    Simulates tokens allowed s (Expr.primary s.inside (tokens.drop s.position))
      ((primary tokens).steps s) := by
  have hask {position : Nat} (close : Token) (forward : s.position < position) :
      Simulates tokens allowed s (Expr.group s.inside close (tokens.drop position))
        ((ask (.group close)).steps ⟨position, s.depth⟩) :=
    simulates_ask (hgroup position close forward) (Nat.le_of_lt forward) rfl
  have hbehind : s.position < s.position + 1 := Nat.lt_succ_self _
  rw [primary]
  cases hrest : tokens.drop s.position with
  | nil =>
    rw [next_bind_nil hrest]
    exact .error_at rfl (Nat.le_refl _) rfl
  | cons token rest =>
    have hlt : s.position < tokens.length := lt_of_drop hrest
    obtain rfl : tokens.drop (s.position + 1) = rest := drop_succ hrest
    rw [next_bind_cons hrest]
    cases token with
    | number value | constant name => exact Agrees.ok hbehind hlt
    | leftParen =>
      dsimp only
      rw [peek_bind]
      by_cases hclose : (tokens.drop (s.position + 1)).head? = some .rightParen
      · obtain ⟨more, hmore⟩ := List.head?_eq_some_iff.mp hclose
        rw [if_pos hclose, hmore]
        exact Agrees.error_at rfl (Nat.le_of_lt hbehind) rfl
      · rw [if_neg hclose, primary_bracket hclose]
        exact hask .rightParen hbehind
    | bar => exact simulates_map (Expr.call .abs) (hask .bar hbehind)
    | function name =>
      have hargument : Simulates tokens allowed s
          (Expr.argument s.inside name (tokens.drop (s.position + 1)))
          ((argument tokens name).steps ⟨s.position + 1, s.depth⟩) :=
        simulates_argument (t := ⟨s.position + 1, s.depth⟩) name (Nat.le_of_lt hbehind) rfl
          (hgroup _ _ (Nat.lt_succ_of_lt hbehind))
      cases name with
      | sqrt =>
        exact simulates_radicand (t := ⟨s.position + 1, s.depth⟩) hfits (Nat.le_of_lt hbehind) rfl
          (hgroup _ _ (Nat.lt_succ_of_lt hbehind)) hinside
      | _ => exact hargument
    | _ => exact Agrees.error_at rfl (Nat.le_of_lt hbehind) rfl

end PocketCalculator.Descent
