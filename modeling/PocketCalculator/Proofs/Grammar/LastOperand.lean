import Mathlib.Data.List.Basic
import PocketCalculator.Proofs.Grammar.Acceptance
import PocketCalculator.Proofs.Grammar.Prefix

/-!
# The last operand of a phrase

A sum ends with the operand that binds tightest: the last operand of the last power of the last
product, with its signs (`Derives.hasLast`). Another power in that operand's place makes another sum
of the same shape around it. So an exponent written behind a sum is one of its last operand
(`Splits.raised`), and it is the exponent of the whole only where there is nothing before that
operand. What is before it ends with an operator that stands behind another operand
(`Derives.hasLastParted`), so all signs in front of the operand are its own.
-/

namespace PocketCalculator

/-- An expression with a place for its last operand. -/
inductive Spine where
  | operand
  | exponent (base : Expr) (spine : Spine)
  | link (first : Expr) (links : List (Operator × Expr)) (operator : Operator) (spine : Spine)

namespace Spine

/-- The expression with this operand in its place. -/
def fill : Spine → Expr → Expr
  | operand, e => e
  | exponent base spine, e => .pow base (fill spine e)
  | link first links operator spine, e => .chain first (links ++ [(operator, fill spine e)])

/-- The number of exponents that the place is in. -/
def levels : Spine → Nat
  | operand => 0
  | exponent _ spine => levels spine + 1
  | link _ _ _ spine => levels spine

end Spine

namespace Grammar

open PocketCalculator.Expr

variable {rule : PercentRule} {category : Category} {levels inner : Nat}
  {tokens before last : List Token} {tree operand exponent : Expr} {spine : Spine}

/-- A phrase of so many levels is one of more. -/
theorem Derives.mono (h : Derives rule category levels tokens tree) :
    ∀ {more : Nat}, levels ≤ more → Derives rule category more tokens tree := by
  induction h with
  | number => exact fun _ => .number
  | constant => exact fun _ => .constant
  | brackets _ ih =>
    intro more hle
    obtain ⟨more, rfl⟩ := Nat.exists_eq_add_of_lt hle
    exact .brackets (ih (Nat.le_add_right _ more))
  | bars _ ih =>
    intro more hle
    obtain ⟨more, rfl⟩ := Nat.exists_eq_add_of_lt hle
    exact .bars (ih (Nat.le_add_right _ more))
  | argument _ ih =>
    intro more hle
    obtain ⟨more, rfl⟩ := Nat.exists_eq_add_of_lt hle
    exact .argument (ih (Nat.le_add_right _ more))
  | root _ bare ih =>
    intro more hle
    obtain ⟨more, rfl⟩ := Nat.exists_eq_add_of_lt hle
    exact .root (ih (Nat.le_add_right _ more)) bare
  | percents count _ ih => exact fun hle => .percents count (ih hle)
  | rootPercents count _ allowed ih => exact fun hle => .rootPercents count (ih hle) allowed
  | unsigned _ ih => exact fun hle => .unsigned (ih hle)
  | minus _ ih =>
    intro more hle
    obtain ⟨more, rfl⟩ := Nat.exists_eq_add_of_lt hle
    exact .minus (ih (Nat.le_add_right _ more))
  | plus _ ih =>
    intro more hle
    obtain ⟨more, rfl⟩ := Nat.exists_eq_add_of_lt hle
    exact .plus (ih (Nat.le_add_right _ more))
  | base _ ih => exact fun hle => .base (ih hle)
  | power _ _ ihbase ihexponent =>
    intro more hle
    obtain ⟨more, rfl⟩ := Nat.exists_eq_add_of_lt hle
    exact .power (ihbase hle) (ihexponent (Nat.le_add_right _ more))
  | product links _ operators _ ih ihs =>
    exact fun hle => .product links (ih hle) operators fun link hmem => ihs link hmem hle
  | sum links _ operators _ ih ihs =>
    exact fun hle => .sum links (ih hle) operators fun link hmem => ihs link hmem hle

/-! ## Where a phrase ends -/

/-- The phrase is `before` and the operand `last`, for which `inner` levels are left. -/
structure Splits (category : Category) (inner : Nat) (before last : List Token) (spine : Spine)
    (operand : Expr) : Prop where
  signed : Derives .operand .signed inner last operand
  /-- Any power may stand in the place of the operand. -/
  leads : ∀ {levels tokens tree}, inner ≤ levels → Derives .operand .power levels tokens tree →
    Derives .operand category (levels + spine.levels) (before ++ tokens) (spine.fill tree)
  whole : spine = .operand ↔ before = []

theorem Splits.base (h : Derives .operand .signed inner last operand) :
    Splits .power inner [] last .operand operand where
  signed := h
  leads _ hpower := hpower
  whole := by simp

theorem Splits.power {baseTokens : List Token} {base : Expr}
    (h : Splits .power inner before last spine operand)
    (hbase : Derives .operand .signed (inner + spine.levels + 1) baseTokens base) :
    Splits .power inner (baseTokens ++ .caret :: before) last (.exponent base spine) operand where
  signed := h.signed
  leads hle hpower := by
    rw [List.append_assoc, List.cons_append]
    exact .power (hbase.mono (Nat.succ_le_succ (Nat.add_le_add_right hle spine.levels)))
      (h.leads hle hpower)
  whole := by simp

/-- The tokens end with an operator behind an operand, if there are any: what is before the last of them
is complete. -/
def Parted (before : List Token) : Prop :=
  ∀ front token, before = front ++ [token] → Walks .sum front

theorem parted_nil : Parted [] :=
  fun front token h => absurd h.symm (List.concat_ne_nil token front)

theorem Parted.behind {phrase : List Token} (h : Parted before) (hphrase : Walks .sum phrase)
    (operator : Operator) : Parted (phrase ++ operator.token :: before) := by
  intro front token heq
  rcases List.eq_nil_or_concat' before with rfl | ⟨before, last, rfl⟩
  · obtain ⟨rfl, -⟩ := List.append_inj' heq rfl
    exact hphrase
  · rw [← List.cons_append, ← List.append_assoc] at heq
    obtain ⟨rfl, -⟩ := List.append_inj' heq rfl
    intro groups next hnext
    refine Place.walk_trans (hphrase groups next hnext) ?_
    rw [Place.walk_cons (Place.step_operator groups operator)]
    exact h before last rfl groups .operand (by decide)

/-- How a chain is put together out of its operands. -/
def Chains (operators : List Operator) (part whole : Category) : Prop :=
  ∀ {levels : Nat} {tokens : List Token} {tree : Expr} (links : List Link),
    Derives .operand part levels tokens tree → (∀ link ∈ links, link.operator ∈ operators) →
    (∀ link ∈ links, Derives .operand part levels link.tokens link.tree) →
    Derives .operand whole levels (tokens ++ links.flatMap Link.text)
      (tree.chained (links.map Link.node))

section Chain

variable {operators : List Operator} {part whole : Category} (hchain : Chains operators part whole)

include hchain in
theorem Splits.first (h : Splits part inner before last spine operand) :
    Splits whole inner before last spine operand where
  signed := h.signed
  leads hle hpower := by
    have hwhole := hchain [] (h.leads hle hpower) (by simp) (by simp)
    rw [List.flatMap_nil, List.append_nil] at hwhole
    exact hwhole
  whole := h.whole

include hchain in
theorem Splits.link {firstTokens : List Token} {first : Expr} {links : List Link}
    {operator : Operator} (h : Splits part inner before last spine operand)
    (hfirst : Derives .operand part (inner + spine.levels) firstTokens first)
    (hoperators : ∀ link ∈ links, link.operator ∈ operators)
    (hlinks : ∀ link ∈ links, Derives .operand part (inner + spine.levels) link.tokens link.tree)
    (hoperator : operator ∈ operators) :
    Splits whole inner (firstTokens ++ (links.flatMap Link.text ++ operator.token :: before)) last
      (.link first (links.map Link.node) operator spine) operand where
  signed := h.signed
  leads {levels tokens tree} hle hpower := by
    have hmore := Nat.add_le_add_right hle spine.levels
    have hwhole := hchain (links ++ [⟨operator, before ++ tokens, spine.fill tree⟩])
      (hfirst.mono hmore)
      (List.forall_mem_append.mpr ⟨hoperators, List.forall_mem_singleton.mpr hoperator⟩)
      (List.forall_mem_append.mpr ⟨fun link hmem => (hlinks link hmem).mono hmore,
        List.forall_mem_singleton.mpr (h.leads hle hpower)⟩)
    simpa [chained, Link.text, Link.node, Spine.fill, Spine.levels] using hwhole
  whole := by simp

/-- The phrase has a last operand. -/
def HasLast (category : Category) (levels : Nat) (tokens : List Token) (tree : Expr) : Prop :=
  ∃ inner before last spine operand, levels = inner + spine.levels ∧ tokens = before ++ last ∧
    tree = spine.fill operand ∧ Splits category inner before last spine operand

/-- The phrase has a last operand, and the signs before that belong to it. -/
def HasLastParted (category : Category) (levels : Nat) (tokens : List Token) (tree : Expr) : Prop :=
  ∃ inner before last spine operand, levels = inner + spine.levels ∧ tokens = before ++ last ∧
    tree = spine.fill operand ∧ Splits category inner before last spine operand ∧ Parted before

include hchain in
theorem hasLast_chain {links : List Link} (hoperand : .operand ∈ expectations part)
    (hfirst : Derives .operand part levels tokens tree)
    (hoperators : ∀ link ∈ links, link.operator ∈ operators)
    (hlinks : ∀ link ∈ links, Derives .operand part levels link.tokens link.tree)
    (hlast : HasLastParted part levels tokens tree)
    (hlasts : ∀ link ∈ links, HasLastParted part levels link.tokens link.tree) :
    HasLastParted whole levels (tokens ++ links.flatMap Link.text)
      (tree.chained (links.map Link.node)) := by
  rcases List.eq_nil_or_concat' links with rfl | ⟨links, link, rfl⟩
  · obtain ⟨inner, before, last, spine, operand, rfl, rfl, rfl, h, hparted⟩ := hlast
    exact ⟨inner, before, last, spine, operand, rfl, by simp, rfl, h.first hchain, hparted⟩
  · obtain ⟨hoperators, hoperator⟩ := List.forall_mem_append.mp hoperators
    obtain ⟨hlinks, -⟩ := List.forall_mem_append.mp hlinks
    obtain ⟨inner, before, last, spine, operand, rfl, htokens, htree, h, hparted⟩ :=
      hlasts link (by simp)
    have hbefore : Walks .sum (tokens ++ links.flatMap Link.text) := by
      intro groups next hnext
      obtain rfl := List.mem_singleton.mp hnext
      exact Place.walk_trans (hfirst.walk groups _ hoperand)
        (walk_links (fun link hmem => (hlinks link hmem).walk) hoperand groups)
    refine ⟨inner, _, last, .link tree (links.map Link.node) link.operator spine, operand, rfl,
      ?_, ?_, h.link hchain hfirst hoperators hlinks (hoperator link (by simp)), ?_⟩
    · simp [Link.text, htokens]
    · simp [chained, Link.node, Spine.fill, htree]
    · rw [← List.append_assoc]
      exact hparted.behind hbefore link.operator

end Chain

theorem Derives.hasLastParted (h : Derives .operand category levels tokens tree)
    (hcategory : category ∈ [.power, .product, .sum]) :
    HasLastParted category levels tokens tree := by
  induction h with
  | number | constant | brackets _ _ | bars _ _ | argument _ _ | root _ _ _ | percents _ _ _
  | rootPercents _ _ _ _ | unsigned _ _ | minus _ _ | plus _ _ => simp at hcategory
  | base operand _ => exact ⟨_, [], _, .operand, _, rfl, rfl, rfl, .base operand, parted_nil⟩
  | power base _ _ ih =>
    obtain ⟨inner, before, last, spine, operand, rfl, rfl, rfl, h, hparted⟩ := ih (by simp)
    exact ⟨inner, _, last, _, operand, rfl, by simp, rfl, h.power base,
      hparted.behind base.walk .pow⟩
  | product links first operators operands ih ihs =>
    exact hasLast_chain Derives.product (by decide) first operators operands (ih (by simp))
      fun link hmem => ihs link hmem (by simp)
  | sum links first operators operands ih ihs =>
    exact hasLast_chain Derives.sum (by decide) first operators operands (ih (by simp))
      fun link hmem => ihs link hmem (by simp)

/-- **Every power, product and sum has a last operand.** -/
theorem Derives.hasLast (h : Derives .operand category levels tokens tree)
    (hcategory : category ∈ [.power, .product, .sum]) : HasLast category levels tokens tree := by
  obtain ⟨inner, before, last, spine, operand, hlevels, htokens, htree, hsplits, -⟩ :=
    h.hasLastParted hcategory
  exact ⟨inner, before, last, spine, operand, hlevels, htokens, htree, hsplits⟩

/-! ## An exponent behind a phrase -/

/-- A tree with a power at the place of the spine needs one level more than the place is in. -/
theorem Derives.levels_lt {base exponent : Expr} (h : Derives rule category levels tokens tree) :
    ∀ {spine : Spine}, tree = spine.fill (.pow base exponent) → spine.levels < levels := by
  induction h with
  | number | constant | bars _ _ | argument _ _ | root _ _ _ | minus _ _ =>
    intro spine htree
    cases spine <;> cases htree
  | brackets _ ih | plus _ ih =>
    intro spine htree
    exact Nat.lt_succ_of_lt (ih htree)
  | unsigned _ ih | base _ ih => exact ih
  | percents count _ ih | rootPercents count _ _ ih =>
    intro spine htree
    rw [percentage] at htree
    split at htree
    · exact ih htree
    · cases spine <;> cases htree
  | power _ _ _ ih =>
    intro spine htree
    cases spine with
    | operand => exact Nat.succ_pos _
    | exponent base spine =>
      obtain ⟨-, hexponent⟩ := Expr.pow.inj htree
      exact Nat.succ_lt_succ (ih hexponent)
    | link => cases htree
  | product links _ _ _ ih ihs | sum links _ _ _ ih ihs =>
    intro spine htree
    rw [chained] at htree
    split at htree
    · exact ih htree
    · cases spine with
      | operand | exponent _ _ => cases htree
      | link first init operator spine =>
        obtain ⟨-, hlinks⟩ := Expr.chain.inj htree
        have hmem : (operator, spine.fill (.pow base exponent)) ∈ links.map Link.node := by
          rw [hlinks]
          exact List.mem_append_right _ List.mem_cons_self
        obtain ⟨link, hmem, hnode⟩ := List.mem_map.mp hmem
        show spine.levels < _
        exact ihs link hmem (Prod.mk.inj hnode).2

/-- An exponent behind the phrase is one of its last operand. -/
theorem Splits.raised {exponentTokens : List Token}
    (h : Splits category inner before last spine operand)
    (hexponent : Derives .operand .power levels exponentTokens exponent)
    (hle : inner ≤ levels + 1) :
    Derives .operand category (levels + 1 + spine.levels)
      (before ++ last ++ .caret :: exponentTokens) (spine.fill (.pow operand exponent)) := by
  rw [List.append_assoc]
  exact h.leads hle (.power (h.signed.mono hle) hexponent)

end Grammar

end PocketCalculator
