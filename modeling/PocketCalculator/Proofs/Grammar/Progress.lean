import PocketCalculator.Proofs.Grammar.Acceptance
import PocketCalculator.Proofs.Grammar.Routines

/-!
# Progress of the descent

What the routines call decides how long they run. A call is made on a level further in, or of a
routine further in on the same level; and it is made behind a token that is read, or of a routine
that comes later in a row of seven (`Leads`). So whatever calls itself again has read a token and has
opened a level, and calls are nested seven deep to a level at most, which is enough for every routine
to return (`exists_run`). `descent_proceeds` puts it together.
-/

namespace PocketCalculator.Descent

open Relation (TransGen ReflTransGen)

variable {tokens : List Token}

/-! ## Where calls lead -/

/-- The routines by how far out they are. All groups are one routine, whatever closes them. -/
def Routine.rank : Routine → Nat
  | .group _ => 0
  | .primary => 1
  | .percentage => 2
  | .signed => 3
  | .power => 4
  | .product => 5
  | .sum => 6

/-- The routines in the order in which they call each other before a token is read. A group calls a
sum at once, and nothing calls a group at once. -/
def Routine.wait (routine : Routine) : Nat :=
  if routine.rank = 0 then 7 else routine.rank

theorem Routine.rank_le (routine : Routine) : routine.rank ≤ 6 := by
  cases routine <;> simp [rank]

/-- A token is left for the call. Groups look whether there is one. -/
def Call.IsFed (tokens : List Token) (c : Call) : Prop :=
  c.routine.rank ≠ 0 → c.position < tokens.length

/-- What is true of a call and those that are made while it runs. The counter and the position never
go back, and where one of them stays, an order of the routines goes down. -/
structure Leads (tokens : List Token) (c c' : Call) : Prop where
  position : c.position ≤ c'.position
  depth : c.depth ≤ c'.depth
  fits : c'.depth ≤ Expr.maxLevels
  deeper : c.depth < c'.depth ∨ c'.routine.rank < c.routine.rank
  further : c.position < c'.position ∨ c'.routine.wait < c.routine.wait
  fed : c.IsFed tokens → c'.IsFed tokens

namespace Leads

variable {c c' c'' : Call} {s : State} {routine routine' : Routine} {position : Nat}

/-- Each of the two is a lexicographic order. -/
theorem trans (h : Leads tokens c c') (h' : Leads tokens c' c'') : Leads tokens c c'' where
  position := Nat.le_trans h.position h'.position
  depth := Nat.le_trans h.depth h'.depth
  fits := h'.fits
  deeper := by
    have hdepth := h.depth
    have hdepth' := h'.depth
    rcases h.deeper with hlt | hlt <;> rcases h'.deeper with hlt' | hlt' <;> omega
  further := by
    have hposition := h.position
    have hposition' := h'.position
    rcases h.further with hlt | hlt <;> rcases h'.further with hlt' | hlt' <;> omega
  fed hfed := h'.fed (h.fed hfed)

/-- Where nothing is read yet. -/
theorem here (hfits : s.depth ≤ Expr.maxLevels) (hrank : routine'.rank < routine.rank)
    (hwait : routine'.wait < routine.wait) : Leads tokens ⟨s, routine⟩ ⟨s, routine'⟩ where
  position := Nat.le_refl _
  depth := Nat.le_refl _
  fits := hfits
  deeper := .inr hrank
  further := .inr hwait
  fed hfed _ := hfed (Nat.ne_zero_of_lt hrank)

/-- Behind what is read, on the same level. -/
theorem behind (hfits : s.depth ≤ Expr.maxLevels) (hrank : routine'.rank < routine.rank)
    (forward : s.position < position) (hfed : routine'.rank ≠ 0 → position < tokens.length) :
    Leads tokens ⟨s, routine⟩ ⟨⟨position, s.depth⟩, routine'⟩ where
  position := Nat.le_of_lt forward
  depth := Nat.le_refl _
  fits := hfits
  deeper := .inr hrank
  further := .inl forward
  fed _ := hfed

/-- On a level of its own. -/
theorem inside (forward : s.position ≤ position) (hlt : position < tokens.length)
    (hdepth : s.depth < Expr.maxLevels)
    (further : s.position < position ∨ routine'.wait < routine.wait) :
    Leads tokens ⟨s, routine⟩ ⟨⟨position, s.depth + 1⟩, routine'⟩ where
  position := forward
  depth := Nat.le_succ _
  fits := hdepth
  deeper := .inl (Nat.lt_succ_self _)
  further := further
  fed _ _ := hlt

end Leads

/-- **What a routine does**: its calls lead on, and if they end as they should, so does it. -/
theorem meets_steps {c : Call} (hfits : c.depth ≤ Expr.maxLevels) :
    (c.steps tokens).Meets (Leads tokens c) (Expected tokens) (Expected tokens c) := by
  obtain ⟨s, routine⟩ := c
  cases routine with
  | sum =>
    exact simulates_chain rfl (.here hfits (by decide) (by decide))
      fun _ forward hlt => .behind hfits (by decide) forward fun _ => hlt
  | product =>
    exact simulates_chain rfl (.here hfits (by decide) (by decide))
      fun _ forward hlt => .behind hfits (by decide) forward fun _ => hlt
  | power =>
    exact simulates_power hfits (.here hfits (by decide) (by decide))
      fun _ forward hlt hdepth => .inside (Nat.le_of_lt forward) hlt hdepth (.inl forward)
  | signed =>
    exact simulates_signed hfits (.here hfits (by decide) (by decide))
      fun hlt hdepth => .inside (Nat.le_succ _) hlt hdepth (.inl (Nat.lt_succ_self _))
  | percentage => exact simulates_percentage (.here hfits (by decide) (by decide))
  | primary =>
    exact simulates_primary hfits
      (fun _ _ forward => .behind hfits Nat.zero_lt_one forward (absurd rfl))
      fun hlt hdepth => .inside (Nat.le_succ _) hlt hdepth (.inl (Nat.lt_succ_self _))
  | group close =>
    exact simulates_group hfits
      fun hlt hdepth => .inside (Nat.le_refl _) hlt hdepth (.inr (Nat.lt_succ_self _))

/-! ## Runs -/

/-- How deep calls are nested in a call, with itself. -/
def Call.nesting (c : Call) : Nat :=
  7 * (Expr.maxLevels - c.depth) + c.routine.rank + 1

theorem Leads.nesting_lt {c c' : Call} (h : Leads tokens c c') : c'.nesting < c.nesting := by
  have hdepth := h.depth
  have hfits := h.fits
  have hrank := c'.routine.rank_le
  rw [Call.nesting, Call.nesting]
  rcases h.deeper with hlt | hlt <;> omega

/-- **Every routine returns**, and as it should. -/
theorem exists_run {c : Call} {nesting : Nat} (hfits : c.depth ≤ Expr.maxLevels)
    (hnesting : c.nesting ≤ nesting) :
    ∃ outcome, run tokens nesting c = some outcome ∧ Expected tokens c outcome := by
  induction nesting generalizing c with
  | zero => exact absurd hnesting (Nat.not_succ_le_zero _)
  | succ nesting ih =>
    exact (meets_steps hfits).exists_follow fun c' h =>
      ih h.fits (Nat.le_of_lt_succ (Nat.lt_of_lt_of_le h.nesting_lt hnesting))

theorem expected_of_run {c : Call} {nesting : Nat} {outcome : Outcome Expr}
    (hfits : c.depth ≤ Expr.maxLevels) (h : run tokens nesting c = some outcome) :
    Expected tokens c outcome := by
  induction nesting generalizing c outcome with
  | zero => cases h
  | succ nesting ih => exact (meets_steps hfits).of_follow (fun c' _ hleads => ih hleads.fits) h

theorem Returns.expected {c : Call} {outcome : Outcome Expr} (h : Returns tokens c outcome)
    (hfits : c.depth ≤ Expr.maxLevels) : Expected tokens c outcome := by
  obtain ⟨nesting, h⟩ := h
  exact expected_of_run hfits h

theorem Calls.leads {c c' : Call} (h : Calls tokens c c') (hfits : c.depth ≤ Expr.maxLevels) :
    Leads tokens c c' :=
  (meets_steps hfits).allowed_of_makes (fun _ _ hleads hreturns => hreturns.expected hleads.fits) h

theorem leads_of_transGen {c c' : Call} (h : TransGen (Calls tokens) c c')
    (hfits : c.depth ≤ Expr.maxLevels) : Leads tokens c c' := by
  induction h with
  | single h => exact h.leads hfits
  | tail _ h ih => exact ih.trans (h.leads ih.fits)

/-! ## Reading all the tokens -/

/-- The one call that is made at first, if there are tokens at all. -/
def IsFirst (tokens : List Token) (c : Call) : Prop :=
  c = ⟨start, .sum⟩ ∧ 0 < tokens.length

theorem IsFirst.fits {c : Call} (h : IsFirst tokens c) : c.depth ≤ Expr.maxLevels := by
  rw [h.1]
  exact Nat.zero_le _

theorem IsFirst.nesting_eq {c : Call} (h : IsFirst tokens c) :
    c.nesting = 7 * (Expr.maxLevels + 1) := by
  rw [h.1]
  rfl

theorem meets_expression (tokens : List Token) :
    ((expression tokens).steps start).Meets (IsFirst tokens) (Expected tokens)
      fun outcome => outcome.result = Expr.ofTokens tokens := by
  by_cases hne : tokens = []
  · subst hne
    rfl
  · rw [expression, if_neg hne, Grammar.ofTokens_of_ne_nil hne]
    refine meets_ask_bind ⟨rfl, List.length_pos_iff.mpr hne⟩ fun outcome h => ?_
    have hagrees : Agrees tokens start (Expr.sum (Grammar.inside Expr.maxLevels) tokens) outcome := h
    clear h
    generalize Expr.sum (Grammar.inside Expr.maxLevels) tokens = reading at hagrees
    cases hagrees with
    | error _ => rfl
    | @ok e position _ _ =>
      rw [goOn_ok]
      cases hrest : tokens.drop position with
      | nil =>
        rw [next_bind_nil hrest]
        rfl
      | cons token rest =>
        rw [next_bind_cons hrest]
        cases token <;> rfl

/-- **Calls are nested seven deep to a level**, however many tokens there are. -/
theorem read_eq (tokens : List Token) :
    read tokens (7 * (Expr.maxLevels + 1)) = some (Expr.ofTokens tokens) := by
  obtain ⟨outcome, hfollow, hresult⟩ := (meets_expression tokens).exists_follow fun c hfirst =>
    exists_run hfirst.fits (Nat.le_of_eq hfirst.nesting_eq)
  rw [read, hfollow, Option.map_some, hresult]

/-- No operand is looked for behind the last token: the routines before it have looked whether there
is one. -/
theorem Started.position_lt {c : Call} (h : Started tokens c) (hprimary : c.routine = .primary) :
    c.position < tokens.length := by
  obtain ⟨first, hmakes, hcalls⟩ := h
  have hfirst : IsFirst tokens first := (meets_expression tokens).allowed_of_makes
    (fun _ _ hfirst hreturns => hreturns.expected hfirst.fits) hmakes
  have hfed : first.IsFed tokens := by
    rw [hfirst.1]
    exact fun _ => hfirst.2
  have hrank : c.routine.rank ≠ 0 := by
    rw [hprimary]
    exact Nat.one_ne_zero
  rcases Relation.reflTransGen_iff_eq_or_transGen.mp hcalls with rfl | hcalls
  · exact hfed hrank
  · exact (leads_of_transGen hcalls hfirst.fits).fed hfed hrank

/-! ## The whole descent -/

/-- **The descent gets on and comes back.** A routine that is called anywhere in the tokens, with any
number of levels open, returns with what its reader gives. With a value it has read tokens, and as
many levels are open as before. With an error they are too, but for the level that found no room. A
routine that calls itself, directly or not, has read a token and opened a level in between. So calls
are nested no deeper than the levels allow, all the tokens are read without a difference below zero,
and an operand is only looked for where a token is left. -/
theorem descent_proceeds (tokens : List Token) :
    (∀ c : Call, c.depth ≤ Expr.maxLevels →
      (∃ outcome, Returns tokens c outcome) ∧
      ∀ outcome, Returns tokens c outcome →
        outcome.result = (c.reading tokens).map Prod.fst ∧
        (∀ e, outcome.result = .ok e →
          c.reading tokens = .ok (e, tokens.drop outcome.position) ∧
          c.position < outcome.position ∧ outcome.position ≤ tokens.length ∧
          outcome.depth = c.depth) ∧
        ∀ cause, outcome.result = .error cause → outcome.depth = c.depth + openLevels cause) ∧
    (∀ c c' : Call, c.depth ≤ Expr.maxLevels → TransGen (Calls tokens) c c' →
      c'.routine.rank = c.routine.rank → c.position < c'.position ∧ c.depth < c'.depth) ∧
    read tokens (7 * (Expr.maxLevels + 1)) = some (Expr.ofTokens tokens) ∧
    ∀ c, Started tokens c → c.routine = .primary → c.position < tokens.length := by
  refine ⟨fun c hfits => ⟨?_, fun outcome hreturns => ?_⟩, fun c c' hfits hcalls hrank => ?_,
    read_eq tokens, fun c hstarted => hstarted.position_lt⟩
  · obtain ⟨outcome, hrun, -⟩ := exists_run hfits (Nat.le_refl c.nesting)
    exact ⟨outcome, _, hrun⟩
  · have hagrees : Agrees tokens c.toState (c.reading tokens) outcome := hreturns.expected hfits
    generalize c.reading tokens = reading at hagrees ⊢
    cases hagrees with
    | error _ =>
      refine ⟨rfl, nofun, fun cause hcause => ?_⟩
      cases hcause
      rfl
    | ok forward within =>
      refine ⟨rfl, fun e he => ?_, nofun⟩
      cases he
      exact ⟨rfl, forward, within, rfl⟩
  · have hleads := leads_of_transGen hcalls hfits
    have hwait : c'.routine.wait = c.routine.wait := by rw [Routine.wait, hrank, Routine.wait]
    exact ⟨hleads.further.resolve_right (Nat.not_lt_of_le (Nat.le_of_eq hwait.symm)),
      hleads.deeper.resolve_right (Nat.not_lt_of_le (Nat.le_of_eq hrank.symm))⟩

/-- A sum in brackets: the routine of sums calls itself by way of all the others. -/
theorem brackets_called_again :
    Returns [.leftParen, .number 1, .rightParen] ⟨start, .sum⟩ ⟨⟨3, 0⟩, .ok (.number 1)⟩ ∧
    TransGen (Calls [.leftParen, .number 1, .rightParen]) ⟨start, .sum⟩ ⟨⟨1, 1⟩, .sum⟩ ∧
    start.position < 3 ∧ start.position < 1 ∧ start.depth < 1 := by
  have hreturns : Returns [.leftParen, .number 1, .rightParen] ⟨start, .sum⟩
      ⟨⟨3, 0⟩, .ok (.number 1)⟩ := ⟨13, rfl⟩
  have hcalls : TransGen (Calls [.leftParen, .number 1, .rightParen]) ⟨start, .sum⟩
      ⟨⟨1, 1⟩, .sum⟩ := by
    refine .head (b := ⟨start, .product⟩) (.now rfl) ?_
    refine .head (b := ⟨start, .power⟩) (.now rfl) ?_
    refine .head (b := ⟨start, .signed⟩) (.now rfl) ?_
    refine .head (b := ⟨start, .percentage⟩) (.now rfl) ?_
    refine .head (b := ⟨start, .primary⟩) (.now rfl) ?_
    refine .head (b := ⟨⟨1, 0⟩, .group .rightParen⟩) (.now rfl) ?_
    exact .single (.now rfl)
  obtain ⟨hroutines, hagain, -⟩ := descent_proceeds [.leftParen, .number 1, .rightParen]
  have hproceeds := (hroutines ⟨start, .sum⟩ (Nat.zero_le _)).2 _ hreturns
  obtain ⟨-, hposition, -⟩ := hproceeds.2.1 _ rfl
  exact ⟨hreturns, hcalls, hposition, hagain _ _ (Nat.zero_le _) hcalls rfl⟩

end PocketCalculator.Descent
