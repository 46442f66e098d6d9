import PocketCalculator.Proofs.Grammar

/-!
# The beginnings of sums

Whether tokens can still become a sum shows while they are read from left to right. It takes what may
come next and the groups that are open (`Place`), and no look ahead. A phrase leads from the place
where its operand may begin to the place behind it, with the same groups open (`Derives.walk`). So
tokens that have no way through the places are the beginning of no sum. That those with a way are the
beginning of one needs a reader and is shown with the positions of its errors.
-/

namespace PocketCalculator.Grammar

/-- What a group is enclosed by. -/
inductive Group where
  | brackets
  | bars
  deriving DecidableEq

def Group.close : Group → Token
  | brackets => .rightParen
  | bars => .bar

/-- What may come next. -/
inductive Expectation where
  /-- An operand and signs before it. -/
  | operand
  /-- The operand of a root sign, which takes no sign. -/
  | radicand
  /-- The bracket that opens the argument of a function. -/
  | argument
  /-- What goes on behind an operand. -/
  | continuation
  deriving DecidableEq

/-- A place between two tokens: what may come next, and the open groups, the innermost first. -/
structure Place where
  next : Expectation
  groups : List Group
  deriving DecidableEq

namespace Place

/-- Where every sum begins. -/
def start : Place :=
  ⟨.operand, []⟩

/-- Where a sum may end. -/
def done : Place :=
  ⟨.continuation, []⟩

/-- The place behind a token with which an operand begins. -/
def beginOperand (groups : List Group) : Token → Option Place
  | .number _ | .constant _ => some ⟨.continuation, groups⟩
  | .leftParen => some ⟨.operand, .brackets :: groups⟩
  | .bar => some ⟨.operand, .bars :: groups⟩
  | .function .sqrt => some ⟨.radicand, groups⟩
  | .function _ => some ⟨.argument, groups⟩
  | _ => none

/-- The place behind a token, if the token may come next. A bar opens a group where an operand may
begin, and closes one behind an operand. -/
def step : Place → Token → Option Place
  | ⟨.operand, groups⟩, .plus | ⟨.operand, groups⟩, .minus => some ⟨.operand, groups⟩
  | ⟨.operand, groups⟩, token | ⟨.radicand, groups⟩, token => beginOperand groups token
  | ⟨.argument, groups⟩, .leftParen => some ⟨.operand, .brackets :: groups⟩
  | ⟨.continuation, groups⟩, .plus | ⟨.continuation, groups⟩, .minus
  | ⟨.continuation, groups⟩, .star | ⟨.continuation, groups⟩, .slash
  | ⟨.continuation, groups⟩, .caret => some ⟨.operand, groups⟩
  | ⟨.continuation, groups⟩, .percent => some ⟨.continuation, groups⟩
  | ⟨.continuation, .brackets :: groups⟩, .rightParen => some ⟨.continuation, groups⟩
  | ⟨.continuation, .bars :: groups⟩, .bar => some ⟨.continuation, groups⟩
  | _, _ => none

/-- The place behind some tokens, if each of them may come where it comes. -/
def walk (place : Place) : List Token → Option Place
  | [] => some place
  | token :: tokens => (place.step token).bind fun next => next.walk tokens

theorem walk_append (place : Place) (front rest : List Token) :
    place.walk (front ++ rest) = (place.walk front).bind fun next => next.walk rest := by
  induction front generalizing place with
  | nil => rfl
  | cons token front ih =>
    rw [List.cons_append, walk, walk]
    cases place.step token with
    | none => rfl
    | some next => exact ih next

theorem walk_cons {place next : Place} {token : Token} (h : place.step token = some next)
    (tokens : List Token) : place.walk (token :: tokens) = next.walk tokens := by
  rw [walk, h]
  rfl

theorem walk_trans {place next last : Place} {front rest : List Token}
    (hfront : place.walk front = some next) (hrest : next.walk rest = some last) :
    place.walk (front ++ rest) = some last := by
  rw [walk_append, hfront]
  exact hrest

@[simp] theorem step_operator (groups : List Group) (operator : Operator) :
    step ⟨.continuation, groups⟩ operator.token = some ⟨.operand, groups⟩ := by
  cases operator <;> rfl

@[simp] theorem step_close (group : Group) (groups : List Group) :
    step ⟨.continuation, group :: groups⟩ group.close = some ⟨.continuation, groups⟩ := by
  cases group <;> rfl

end Place

open Place (walk walk_cons walk_trans step step_operator step_close)

/-! ## The way of a phrase -/

/-- Where a phrase may begin. An operand that can have no sign may follow a root sign. -/
def expectations : Category → List Expectation
  | .sum | .product | .power | .signed => [.operand]
  | .percentage | .primary | .bareRoot => [.operand, .radicand]

/-- The tokens lead from where the phrase may begin to the place behind it. -/
def Walks (category : Category) (tokens : List Token) : Prop :=
  ∀ groups, ∀ next ∈ expectations category,
    walk ⟨next, groups⟩ tokens = some ⟨.continuation, groups⟩

variable {rule : PercentRule} {category : Category} {levels : Nat} {tokens : List Token}
  {tree : Expr}

theorem step_beginOperand {next : Expectation} (hnext : next ∈ [Expectation.operand, .radicand])
    {token : Token} (hb : beginsOperand token = true) (groups : List Group) :
    step ⟨next, groups⟩ token = Place.beginOperand groups token := by
  simp only [List.mem_cons, List.not_mem_nil, or_false] at hnext
  rcases hnext with rfl | rfl
  · cases token <;> first | rfl | cases hb
  · cases token <;> rfl

theorem Walks.group (h : Walks .sum tokens) (group : Group) (groups : List Group) :
    walk ⟨.operand, group :: groups⟩ (tokens ++ [group.close]) = some ⟨.continuation, groups⟩ := by
  refine walk_trans (h (group :: groups) .operand (by decide)) ?_
  rw [walk_cons (step_close group groups)]
  rfl

theorem walk_percents (groups : List Group) (count : Nat) :
    walk ⟨.continuation, groups⟩ (List.replicate count .percent) = some ⟨.continuation, groups⟩ := by
  induction count with
  | zero => rfl
  | succ count ih => rwa [List.replicate_succ, walk_cons rfl]

theorem walk_links {links : List Link} (h : ∀ link ∈ links, Walks category link.tokens)
    (hoperand : .operand ∈ expectations category) (groups : List Group) :
    walk ⟨.continuation, groups⟩ (links.flatMap Link.text) = some ⟨.continuation, groups⟩ := by
  induction links with
  | nil => rfl
  | cons link links ih =>
    rw [List.forall_mem_cons] at h
    rw [List.flatMap_cons, Link.text, List.cons_append, walk_cons (step_operator ..)]
    exact walk_trans (h.1 groups _ hoperand) (ih h.2)

/-- **A phrase leads to the place behind it.** The groups that it opens it closes. -/
theorem Derives.walk (h : Derives rule category levels tokens tree) : Walks category tokens := by
  induction h with
  | number | constant =>
    intro groups next hnext
    rw [walk_cons (step_beginOperand hnext rfl groups)]
    rfl
  | brackets _ ih =>
    intro groups next hnext
    rw [walk_cons (step_beginOperand hnext rfl groups)]
    exact ih.group .brackets groups
  | bars _ ih =>
    intro groups next hnext
    rw [walk_cons (step_beginOperand hnext rfl groups)]
    exact ih.group .bars groups
  | @argument _ name _ _ _ ih =>
    intro groups next hnext
    have hname : ∃ place, Place.beginOperand groups (.function name) = some place ∧
        place.step .leftParen = some ⟨.operand, .brackets :: groups⟩ := by
      cases name <;> exact ⟨_, rfl, rfl⟩
    obtain ⟨place, hplace, hparen⟩ := hname
    rw [walk_cons ((step_beginOperand hnext rfl groups).trans hplace), walk_cons hparen]
    exact ih.group .brackets groups
  | root _ _ ih =>
    intro groups next hnext
    rw [walk_cons (step_beginOperand hnext rfl groups)]
    exact ih groups .radicand (by decide)
  | percents count _ ih =>
    intro groups next hnext
    exact walk_trans (ih groups next hnext) (walk_percents groups count)
  | rootPercents count _ _ ih =>
    intro groups next hnext
    exact walk_trans (ih groups next hnext) (walk_percents groups count)
  | unsigned _ ih =>
    intro groups next hnext
    exact ih groups next (by simp_all [expectations])
  | minus _ ih | plus _ ih =>
    intro groups next hnext
    obtain rfl := List.mem_singleton.mp hnext
    rw [walk_cons rfl]
    exact ih groups .operand (by decide)
  | base _ ih => exact ih
  | power _ _ ihb ihe =>
    intro groups next hnext
    refine walk_trans (ihb groups next hnext) ?_
    show Place.walk _ (Operator.pow.token :: _) = _
    rw [walk_cons (step_operator ..)]
    exact ihe groups .operand (by decide)
  | product _ _ _ _ ih ihs | sum _ _ _ _ ih ihs =>
    intro groups next hnext
    exact walk_trans (ih groups next hnext) (walk_links ihs (by decide) groups)

/-! ## How every beginning can end -/

/-- Tokens that complete a sum from a place on. -/
def Place.completion : Place → List Token
  | ⟨.continuation, groups⟩ => groups.map Group.close
  | ⟨.argument, groups⟩ => .leftParen :: .number 0 :: .rightParen :: groups.map Group.close
  | ⟨_, groups⟩ => .number 0 :: groups.map Group.close

theorem walk_closes (groups : List Group) :
    walk ⟨.continuation, groups⟩ (groups.map Group.close) = some Place.done := by
  induction groups with
  | nil => rfl
  | cons group groups ih => rwa [List.map_cons, walk_cons (step_close group groups)]

theorem walk_completion (place : Place) : place.walk place.completion = some Place.done := by
  obtain ⟨next, groups⟩ := place
  cases next <;> exact walk_closes groups

end PocketCalculator.Grammar
