import PocketCalculator.Proofs.Grammar.Acceptance
import PocketCalculator.Proofs.Grammar.Prefix
import PocketCalculator.Proofs.Grammar.Refusal

/-!
# Where a reader fails

A reader that fails, and not for lack of levels, has come to the first place where the tokens can no
longer become a sum. `Halts` says so of a way through the places of a phrase: it leads that far, and
the next token has no place there, or there is none and the phrase is not complete. What the error
says is about the tokens around that place (`Blames`). Both are followed through the readers of one
level under the assumption that they hold of those inside (`FailsLevel`), and `failsLevel` closes the
circle by induction on the number of levels.
-/

namespace PocketCalculator.Grammar

open PocketCalculator.Expr
open EvalError (bind_eq_ok bind_eq_error)
open Place (walk walk_cons walk_trans step step_operator step_close)

/-! ## Places where a reading ends -/

/-- The tokens that are left cannot go on from a place. -/
def Stuck (place : Place) : List Token → Prop
  | [] => place ≠ .done
  | token :: _ => place.step token = none

/-- What an error says of the tokens up to a place and of those that are left. -/
inductive Blames (used rest : List Token) : EvalError → Prop where
  | unexpected {token : Token} {more : List Token} (hrest : rest = token :: more) :
    Blames used rest (.unexpectedToken token.text)
  | trailing {front : List Token} {operator : Operator} (hused : used = front ++ [operator.token])
    (hrest : rest = [] ∨ rest.head? = some .rightParen) : Blames used rest .trailingOperator
  | unclosed (hrest : rest = []) : Blames used rest .unbalanced
  | argument {front : List Token} {name : MathFunction} (hused : used = front ++ [.function name]) :
    Blames used rest (.malformedArgument name.name)
  | noArgument {front : List Token} {name : MathFunction}
    (hused : used = front ++ [.function name, .leftParen])
    (hrest : rest.head? = some .rightParen) : Blames used rest (.malformedArgument name.name)

theorem Blames.prepend {used rest : List Token} {cause : EvalError} (h : Blames used rest cause)
    (front : List Token) : Blames (front ++ used) rest cause := by
  cases h with
  | unexpected hrest => exact .unexpected hrest
  | trailing hused hrest =>
    rw [hused, ← List.append_assoc]
    exact .trailing rfl hrest
  | unclosed hrest => exact .unclosed hrest
  | argument hused =>
    rw [hused, ← List.append_assoc]
    exact .argument rfl
  | noArgument hused hrest =>
    rw [hused, ← List.append_assoc]
    exact .noArgument rfl hrest

/-- From a place the tokens lead to one where they are stuck, and the error is about that place. -/
def Halts (place : Place) (tokens : List Token) (cause : EvalError) : Prop :=
  ∃ used rest last, tokens = used ++ rest ∧ place.walk used = some last ∧ Stuck last rest ∧
    Blames used rest cause

/-- How a reader with so many levels fails. Each level that it has opened has taken a token. -/
def Fails (levels : Nat) (place : Place) (tokens : List Token) (cause : EvalError) : Prop :=
  cause = .tooDeep ∧ levels < tokens.length ∨ Halts place tokens cause

section Fails

variable {levels : Nat} {place next : Place} {tokens used rest : List Token} {token : Token}
  {cause : EvalError}

theorem Halts.after (hused : place.walk used = some next) (h : Halts next rest cause) :
    Halts place (used ++ rest) cause := by
  obtain ⟨front, left, last, rfl, hwalk, hstuck, hblames⟩ := h
  exact ⟨used ++ front, left, last, (List.append_assoc ..).symm, walk_trans hused hwalk, hstuck,
    hblames.prepend used⟩

theorem Fails.after (hused : place.walk used = some next) (h : Fails levels next rest cause) :
    Fails levels place (used ++ rest) cause := by
  rcases h with ⟨hcause, hlevels⟩ | h
  · refine .inl ⟨hcause, ?_⟩
    rw [List.length_append]
    exact Nat.lt_add_left _ hlevels
  · exact .inr (h.after hused)

theorem walk_singleton (h : place.step token = some next) : place.walk [token] = some next :=
  walk_cons h []

theorem Fails.cons (h : Fails levels next tokens cause) (hstep : place.step token = some next) :
    Fails levels place (token :: tokens) cause :=
  h.after (walk_singleton hstep)

/-- The token opens a level. -/
theorem Fails.open (h : Fails levels next tokens cause) (hstep : place.step token = some next) :
    Fails (levels + 1) place (token :: tokens) cause := by
  rcases h with ⟨hcause, hlevels⟩ | h
  · exact .inl ⟨hcause, Nat.succ_lt_succ hlevels⟩
  · exact .inr (h.after (walk_singleton hstep))

/-- The reading ends at the place itself. -/
theorem Fails.here (hstuck : Stuck place tokens) (hblames : Blames [] tokens cause) :
    Fails levels place tokens cause :=
  .inr ⟨[], tokens, place, rfl, rfl, hstuck, hblames⟩

/-- The reading ends behind a token. -/
theorem Fails.behind (hstep : place.step token = some next) (hstuck : Stuck next tokens)
    (hblames : Blames [token] tokens cause) : Fails levels place (token :: tokens) cause :=
  .inr ⟨[token], tokens, next, rfl, walk_singleton hstep, hstuck, hblames⟩

end Fails

/-! ## Operators and levels -/

section Readers

variable {levels : Nat} {place next : Place} {groups : List Group} {tokens : List Token}
  {token : Token} {cause : EvalError}

/-- Behind an operator there has to be an operand. -/
theorem fails_expectOperand (operator : Operator)
    (hstep : place.step operator.token = some ⟨.operand, groups⟩)
    (h : expectOperand tokens = .error cause) :
    Fails levels place (operator.token :: tokens) cause := by
  unfold expectOperand at h
  split at h
  · cases h
    exact .behind hstep (by simp [Stuck, Place.done]) (.trailing (List.nil_append _).symm (.inl rfl))
  · cases h
    exact .behind hstep rfl (.trailing (List.nil_append _).symm (.inr rfl))
  · cases h

theorem ne_nil_of_expectOperand (h : expectOperand tokens = .ok ()) : tokens ≠ [] := by
  rintro rfl
  cases h

theorem fails_enter {α : Type} {f : Level → Except EvalError α}
    (hstep : place.step token = some next) (h : (enter (inside levels) >>= f) = .error cause)
    (hf : ∀ n, levels = n + 1 → f (level n) = .error cause → Fails n next tokens cause) :
    Fails levels place (token :: tokens) cause := by
  cases levels with
  | zero =>
    cases h
    exact .inl ⟨rfl, Nat.succ_pos _⟩
  | succ n => exact (hf n rfl h).open hstep

/-- A step that fails only if the first part of it does. -/
theorem error_of_bind_ok {α β : Type} {x : Except EvalError α} {f : α → β}
    (h : (x >>= fun a => .ok (f a)) = .error cause) : x = .error cause := by
  rcases bind_eq_error.mp h with h | ⟨a, -, h⟩
  · exact h
  · cases h

end Readers

/-! ## The readers of one level -/

/-- The reader fails as it should wherever this may come next. -/
def FailsFrom (next : Expectation) (levels : Nat) (read : Reader) : Prop :=
  ∀ groups tokens cause, tokens ≠ [] → read tokens = .error cause →
    Fails levels ⟨next, groups⟩ tokens cause

structure FailsLevel (levels : Nat) : Prop where
  sum : FailsFrom .operand levels (level levels).sum
  power : FailsFrom .operand levels (level levels).power
  signed : FailsFrom .operand levels (level levels).signed
  percentage : FailsFrom .radicand levels (level levels).percentage

section Inside

variable {levels : Nat} {groups : List Group} {tokens rest : List Token} {tree : Expr}
  {cause : EvalError} (inner : ∀ n, levels = n + 1 → FailsLevel n)

/-- What ends a sum in a group is its closing token and nothing else. -/
theorem step_group_eq_none {group : Group} {token : Token} (hs : Stops .sum (token :: rest))
    (hclose : token ≠ group.close) : Place.step ⟨.continuation, group :: groups⟩ token = none := by
  rw [stops_cons] at hs
  cases group <;> cases token <;>
    first | rfl | exact absurd rfl hclose | exact absurd (by decide) hs

include inner in
theorem fails_group {place : Place} {opening : Token} (group : Group)
    (hstep : place.step opening = some ⟨.operand, group :: groups⟩)
    (h : Expr.group (inside levels) group.close tokens = .error cause) :
    Fails levels place (opening :: tokens) cause := by
  unfold Expr.group at h
  split at h
  · cases h
    exact .behind hstep (by simp [Stuck, Place.done]) (.unclosed rfl)
  · next hne =>
    refine fails_enter hstep h fun n hn hinner => ?_
    rcases bind_eq_error.mp hinner with hsum | ⟨⟨e, rest⟩, hsum, hafter⟩
    · exact (inner n hn).sum _ _ _ hne hsum
    · -- The sum is read, so what is wrong is what follows it.
      obtain ⟨used, hused, hd, hs⟩ := (soundLevel n).sum _ _ _ hsum
      rw [hused]
      refine Fails.after (hd.walk (group :: groups) _ List.mem_cons_self) ?_
      dsimp only at hafter
      split at hafter
      · cases hafter
        exact .here (by simp [Stuck, Place.done]) (.unclosed rfl)
      · split at hafter
        · cases hafter
        · next hclose =>
          cases hafter
          exact .here (step_group_eq_none hs hclose) (.unexpected rfl)

include inner in
/-- The argument of a function. Behind a root sign it is read only if it has a bracket. -/
theorem fails_argument {place : Place} {name : MathFunction} {next : Expectation}
    (hstep : place.step (.function name) = some ⟨next, groups⟩)
    (hnext : next = .argument ∨ next = .radicand ∧ tokens.head? = some .leftParen)
    (h : Expr.argument (inside levels) name tokens = .error cause) :
    Fails levels place (.function name :: tokens) cause := by
  have hparen : Place.step ⟨next, groups⟩ .leftParen = some ⟨.operand, .brackets :: groups⟩ := by
    rcases hnext with rfl | ⟨rfl, -⟩ <;> rfl
  unfold Expr.argument at h
  split at h
  · next more =>
    cases h
    refine .inr ⟨[.function name, .leftParen], .rightParen :: more,
      ⟨.operand, .brackets :: groups⟩, rfl, ?_, rfl, .noArgument (List.nil_append _).symm rfl⟩
    rw [walk_cons hstep, walk_cons hparen]
    rfl
  · exact (fails_group inner .brackets hparen (error_of_bind_ok h)).cons hstep
  · next hne =>
    cases h
    -- There is no bracket, so this is the argument of no root.
    obtain rfl : next = .argument := by
      rcases hnext with hnext | ⟨-, hhead⟩
      · exact hnext
      · obtain ⟨more, rfl⟩ := List.head?_eq_some_iff.mp hhead
        exact absurd rfl (hne more)
    refine .behind hstep ?_ (.argument (List.nil_append _).symm)
    rcases tokens with - | ⟨token, tokens⟩
    · simp [Stuck, Place.done]
    · cases token <;> first | rfl | exact absurd rfl (hne _)

include inner in
theorem fails_radicand {place : Place} (hstep : place.step (.function .sqrt) = some ⟨.radicand, groups⟩)
    (h : radicand (inside levels) tokens = .error cause) :
    Fails levels place (.function .sqrt :: tokens) cause := by
  unfold radicand at h
  split at h
  · cases h
    exact .behind hstep (by simp [Stuck, Place.done]) (.argument (List.nil_append _).symm)
  · exact fails_argument inner hstep (.inr ⟨rfl, rfl⟩) h
  · next hne _ =>
    refine fails_enter hstep h fun n hn hinner => ?_
    exact (inner n hn).percentage _ _ _ hne (error_of_bind_ok hinner)

include inner in
/-- A primary is read from any place where one may begin. -/
theorem fails_primary {place : Place} {token : Token}
    (hplace : place.step token = Place.beginOperand groups token)
    (h : primary (inside levels) (token :: tokens) = .error cause) :
    Fails levels place (token :: tokens) cause := by
  cases token with
  | number | constant => cases h
  | leftParen =>
    by_cases hclose : tokens.head? = some .rightParen
    · obtain ⟨more, rfl⟩ := List.head?_eq_some_iff.mp hclose
      cases h
      exact .behind hplace rfl (.unexpected rfl)
    · have hgroup : Expr.group (inside levels) .rightParen tokens = .error cause := by
        rcases tokens with - | ⟨token, tokens⟩
        · exact h
        · rwa [primary_leftParen (by simpa using hclose)] at h
      exact fails_group inner .brackets hplace hgroup
  | bar => exact fails_group inner .bars hplace (error_of_bind_ok h)
  | function name =>
    cases name with
    | sqrt => exact fails_radicand inner hplace h
    | _ => exact fails_argument inner hplace (.inl rfl) h
  | _ =>
    cases h
    exact .here hplace (.unexpected rfl)

include inner in
theorem fails_percentage {place : Place} {token : Token} (groups : List Group)
    (hplace : place.step token = Place.beginOperand groups token)
    (h : percentageReader (inside levels) (token :: tokens) = .error cause) :
    Fails levels place (token :: tokens) cause :=
  fails_primary inner hplace (error_of_bind_ok h)

include inner in
theorem fails_signed : FailsFrom .operand levels (signed (inside levels)) := by
  intro groups tokens cause hne h
  unfold signed at h
  split at h
  · rcases bind_eq_error.mp h with hoperand | ⟨_, hoperand, henter⟩
    · exact fails_expectOperand .sub rfl hoperand
    · refine fails_enter rfl henter fun n hn hinner => ?_
      exact (inner n hn).signed groups _ _ (ne_nil_of_expectOperand hoperand)
        (error_of_bind_ok hinner)
  · rcases bind_eq_error.mp h with hoperand | ⟨_, hoperand, henter⟩
    · exact fails_expectOperand .add rfl hoperand
    · refine fails_enter rfl henter fun n hn hinner => ?_
      exact (inner n hn).signed groups _ _ (ne_nil_of_expectOperand hoperand) hinner
  · next hminus hplus =>
    obtain ⟨token, tokens, rfl⟩ := List.exists_cons_of_ne_nil hne
    refine fails_percentage inner groups ?_ h
    cases token with
    | minus => exact absurd rfl (hminus _)
    | plus => exact absurd rfl (hplus _)
    | _ => rfl

include inner in
theorem fails_power : FailsFrom .operand levels (power (inside levels)) := by
  intro groups tokens cause hne h
  rcases bind_eq_error.mp h with hbase | ⟨⟨e, rest⟩, hbase, hafter⟩
  · exact fails_signed inner groups tokens cause hne hbase
  · obtain ⟨used, rfl, hd, -⟩ := sound_signed (fun n _ => soundLevel n) _ _ _ hbase
    refine Fails.after (hd.walk groups _ List.mem_cons_self) ?_
    dsimp only at hafter
    split at hafter
    · rcases bind_eq_error.mp hafter with hoperand | ⟨_, hoperand, henter⟩
      · exact fails_expectOperand .pow rfl hoperand
      · refine fails_enter rfl henter fun n hn hinner => ?_
        exact (inner n hn).power groups _ _ (ne_nil_of_expectOperand hoperand)
          (error_of_bind_ok hinner)
    · cases hafter

end Inside

/-! ## Chains -/

section Chain

variable {operator? : Token → Option Operator} {operators : List Operator}
  {operand whole : Category} {levels : Nat} {read : Reader} {tokens : List Token}
  {cause : EvalError}

/-- Behind an operand of the chain, and behind every link that is read, the place is the same. -/
theorem IsChain.fails_links (hk : IsChain operator? operators operand whole)
    (hr : Sound operand levels read) (hf : FailsFrom .operand levels read)
    (hoperand : .operand ∈ expectations operand) (groups : List Group)
    {done : List (Operator × Expr)} {budget : List Token}
    (h : readLinks operator? read done budget tokens = .error cause) :
    Fails levels ⟨.continuation, groups⟩ tokens cause := by
  induction budget generalizing done tokens with
  | nil => cases tokens <;> cases h
  | cons b budget ih =>
    rcases tokens with - | ⟨token, tokens⟩
    · cases h
    · rw [readLinks] at h
      cases ho : operator? token with
      | none =>
        rw [ho] at h
        cases h
      | some operator =>
        rw [ho] at h
        obtain ⟨-, rfl⟩ := (hk.read _ _).mp ho
        have hstep := step_operator groups operator
        rcases bind_eq_error.mp h with hlast | ⟨_, hlast, hlink⟩
        · exact fails_expectOperand operator hstep hlast
        · rcases bind_eq_error.mp hlink with hread | ⟨⟨e, rest⟩, hread, hmore⟩
          · exact (hf groups _ _ (ne_nil_of_expectOperand hlast) hread).cons hstep
          · obtain ⟨used, rfl, hd, -⟩ := hr _ _ _ hread
            exact ((ih hmore).after (hd.walk groups _ hoperand)).cons hstep

theorem IsChain.fails_chain (hk : IsChain operator? operators operand whole)
    (hr : Sound operand levels read) (hf : FailsFrom .operand levels read)
    (hoperand : .operand ∈ expectations operand) :
    FailsFrom .operand levels (readChain operator? read) := by
  intro groups tokens cause hne h
  rcases bind_eq_error.mp h with hfirst | ⟨⟨e, rest⟩, hfirst, hlinks⟩
  · exact hf groups tokens cause hne hfirst
  · obtain ⟨used, rfl, hd, -⟩ := hr _ _ _ hfirst
    exact (hk.fails_links hr hf hoperand groups (error_of_bind_ok hlinks)).after
      (hd.walk groups _ hoperand)

end Chain

/-! ## All levels -/

section Inside

variable {levels : Nat} (inner : ∀ n, levels = n + 1 → FailsLevel n)

include inner in
theorem fails_product : FailsFrom .operand levels (product (inside levels)) :=
  isChain_product.fails_chain (sound_power fun n _ => soundLevel n) (fails_power inner) (by decide)

include inner in
theorem fails_sum : FailsFrom .operand levels (Expr.sum (inside levels)) :=
  isChain_sum.fails_chain (sound_product fun n _ => soundLevel n) (fails_product inner) (by decide)

include inner in
theorem failsLevel_around : FailsLevel levels := by
  refine ⟨?_, ?_, ?_, ?_⟩
  all_goals rw [level_eq_around]
  · exact fails_sum inner
  · exact fails_power inner
  · exact fails_signed inner
  · intro groups tokens cause hne h
    obtain ⟨token, tokens, rfl⟩ := List.exists_cons_of_ne_nil hne
    exact fails_percentage inner groups (by cases token <;> rfl) h

end Inside

/-- **Every level fails where it should.** Its readers call those of the level inside it only. -/
theorem failsLevel (levels : Nat) : FailsLevel levels := by
  induction levels with
  | zero => exact failsLevel_around fun n hn => absurd hn (by simp)
  | succ levels ih => exact failsLevel_around fun n hn => Nat.succ.inj hn ▸ ih

end PocketCalculator.Grammar
