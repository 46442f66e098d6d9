import PocketCalculator.Proofs.Grammar

/-!
# What is a phrase is read

The readers take every phrase off the front of the tokens that hold it, as long as what follows
cannot go on with the phrase (`Stops`) and the phrase is not deeper than the levels that are left.
Where it is deeper, they run out of levels and say so. `Reads` is the one or the other, and
`Derives.reads` is the statement, by induction on the derivation.

The derivations are those of the rule `.operand`: a reader that meets percent signs takes all of
them.
-/

namespace PocketCalculator.Grammar

open PocketCalculator.Expr

variable {α β : Type}

/-! ## The readers by category -/

/-- The level inside the one with `levels` levels inside it. -/
def inside : Nat → Option Level
  | 0 => none
  | levels + 1 => some (level levels)

def reader (inner : Option Level) : Category → Reader
  | .sum => Expr.sum inner
  | .product => Expr.product inner
  | .power => Expr.power inner
  | .signed => Expr.signed inner
  | .percentage => percentageReader inner
  | .primary | .bareRoot => primary inner

theorem level_eq_around (levels : Nat) : level levels = .around (inside levels) := by
  cases levels <;> rfl

/-- The tokens with which a phrase of a category goes on. -/
def continuations : Category → List Token
  | .sum => [.plus, .minus, .star, .slash, .caret, .percent]
  | .product => [.star, .slash, .caret, .percent]
  | .power => [.caret, .percent]
  | .signed | .percentage | .bareRoot => [.percent]
  | .primary => []

/-- A phrase of the category ends before these tokens. -/
def Stops (category : Category) (rest : List Token) : Prop :=
  ∀ token ∈ rest.head?, token ∉ continuations category

theorem stops_cons {category : Category} {token : Token} {rest : List Token} :
    Stops category (token :: rest) ↔ token ∉ continuations category := by
  simp [Stops]

theorem Stops.mono {category category' : Category} {rest : List Token} (h : Stops category rest)
    (hs : continuations category' ⊆ continuations category) : Stops category' rest :=
  fun token ht hc => h token ht (hs hc)

/-! ## Reading within the levels that are left -/

/-- A reading gives the value, or it runs out of levels where `levels` are left and `needed` are
needed. -/
def Reads (levels needed : Nat) (result : Except EvalError α) (value : α) : Prop :=
  result = .ok value ∨ levels < needed ∧ result = .error .tooDeep

variable {levels needed : Nat} {value : α}

theorem Reads.ok : Reads levels needed (.ok value) value :=
  .inl rfl

theorem Reads.bind {result : Except EvalError α} {f : α → Except EvalError β} {value' : β}
    (h : Reads levels needed result value) (hf : Reads levels needed (f value) value') :
    Reads levels needed (result >>= f) value' := by
  rcases h with rfl | ⟨hl, rfl⟩
  · exact hf
  · exact .inr ⟨hl, rfl⟩

/-- Entering a level takes one of those that are left. -/
theorem Reads.enter {f : Level → Except EvalError α}
    (h : ∀ inner, Reads inner needed (f (level inner)) value) :
    Reads levels (needed + 1) (enter (inside levels) >>= f) value := by
  cases levels with
  | zero => exact .inr ⟨Nat.succ_pos _, rfl⟩
  | succ inner =>
    rcases h inner with hr | ⟨hl, hr⟩
    · exact .inl hr
    · exact .inr ⟨Nat.succ_lt_succ hl, hr⟩

/-! ## Groups and arguments -/

variable {rule : PercentRule} {category : Category} {tokens rest : List Token} {tree : Expr}

/-- What it means for tokens to be read as a phrase of a category: with any number of levels left,
in front of any tokens that cannot go on with the phrase. -/
def ReadsBack (category : Category) (needed : Nat) (tokens : List Token) (tree : Expr) : Prop :=
  ∀ levels rest, Stops category rest →
    Reads levels needed (reader (inside levels) category (tokens ++ rest)) (tree, rest)

theorem Derives.expectOperand (h : Derives rule category needed tokens tree) :
    expectOperand (tokens ++ rest) = .ok () := by
  obtain ⟨token, more, rfl, hb⟩ := h.exists_cons
  unfold Expr.expectOperand
  split
  · next he => simp at he
  · next he =>
    obtain ⟨rfl, -⟩ := List.cons.inj he
    exact absurd hb (by simp [begins_rightParen])
  · rfl

theorem ReadsBack.group {close : Token} (h : ReadsBack .sum needed tokens tree)
    (hne : tokens ≠ []) (hc : close ∉ continuations .sum) :
    Reads levels (needed + 1) (Expr.group (inside levels) close (tokens ++ close :: rest))
      (tree, rest) := by
  obtain ⟨token, more, rfl⟩ := List.exists_cons_of_ne_nil hne
  refine Reads.enter fun inner => ?_
  rw [level_eq_around]
  refine (h inner _ (stops_cons.mpr hc)).bind ?_
  simp [Reads.ok]

/-- An argument in brackets. Its first token is not the closing bracket, which is looked for. -/
theorem ReadsBack.argument (h : ReadsBack .sum needed tokens tree)
    (hd : Derives rule .sum needed tokens tree) (name : MathFunction) :
    Reads levels (needed + 1)
      (Expr.argument (inside levels) name (.leftParen :: (tokens ++ .rightParen :: rest)))
      (.call name tree, rest) := by
  obtain ⟨token, more, rfl, hb⟩ := hd.exists_cons
  unfold Expr.argument
  split
  · next he =>
    obtain ⟨-, he⟩ := List.cons.inj he
    obtain ⟨rfl, -⟩ := List.cons.inj he
    exact absurd hb (by simp [begins_rightParen])
  · next he =>
    obtain ⟨-, rfl⟩ := List.cons.inj he
    exact (h.group (List.cons_ne_nil _ _) (by decide)).bind Reads.ok
  · next h1 h2 => exact absurd rfl (h2 _)

/-! ## Chains -/

/-- What a chain is made of: the operators that its reader knows, the category of its operands and
its own, which goes on with an operator or as its last operand does. -/
structure IsChain (operator? : Token → Option Operator) (operators : List Operator)
    (operand whole : Category) : Prop where
  read : ∀ token operator,
    operator? token = some operator ↔ operator ∈ operators ∧ token = operator.token
  apart : ∀ operator ∈ operators, operator.token ∉ continuations operand
  whole : ∀ token, token ∈ continuations whole ↔
    token ∈ continuations operand ∨ ∃ operator ∈ operators, token = operator.token

theorem isChain_sum : IsChain additive? additive .product .sum where
  read token operator := by
    cases token <;> cases operator <;> simp [additive?, additive, Operator.token]
  apart := by decide
  whole token := by
    cases token <;> simp [continuations, additive, Operator.token]

theorem isChain_product : IsChain multiplicative? multiplicative .power .product where
  read token operator := by
    cases token <;> cases operator <;> simp [multiplicative?, multiplicative, Operator.token]
  apart := by decide
  whole token := by
    cases token <;> simp [continuations, multiplicative, Operator.token]

section Chain

variable {operator? : Token → Option Operator} {operators : List Operator}
  {operand whole : Category}

theorem IsChain.stops_operand (hk : IsChain operator? operators operand whole)
    (h : Stops whole rest) : Stops operand rest :=
  h.mono fun token ht => (hk.whole token).mpr (.inl ht)

/-- Where the chain ends there is no operator for its reader. -/
theorem IsChain.operator?_eq_none (hk : IsChain operator? operators operand whole)
    {token : Token} (h : token ∉ continuations whole) : operator? token = none := by
  rw [Option.eq_none_iff_forall_ne_some]
  intro operator ho
  obtain ⟨hm, rfl⟩ := (hk.read token operator).mp ho
  exact h ((hk.whole _).mpr (.inr ⟨operator, hm, rfl⟩))

/-- Each operand of a chain ends before the link that follows it, or where the chain ends. -/
theorem IsChain.stops_links (hk : IsChain operator? operators operand whole) {links : List Link}
    (ho : ∀ link ∈ links, link.operator ∈ operators) (h : Stops whole rest) :
    Stops operand (links.flatMap Link.text ++ rest) := by
  cases links with
  | nil => exact hk.stops_operand h
  | cons link links =>
    exact stops_cons.mpr (hk.apart _ (ho link List.mem_cons_self))

theorem IsChain.reads_links (hk : IsChain operator? operators operand whole) {read : Reader}
    {links : List Link} (ho : ∀ link ∈ links, link.operator ∈ operators)
    (hd : ∀ link ∈ links, Derives rule operand needed link.tokens link.tree)
    (hr : ∀ link ∈ links, ∀ rest, Stops operand rest →
      Reads levels needed (read (link.tokens ++ rest)) (link.tree, rest))
    (hs : Stops whole rest) (done : List (Operator × Expr)) {budget : List Token}
    (hb : (links.flatMap Link.text ++ rest).length ≤ budget.length) :
    Reads levels needed
      (readLinks operator? read done budget (links.flatMap Link.text ++ rest))
      (done.reverse ++ links.map Link.node, rest) := by
  induction links generalizing done budget with
  | nil =>
    rw [List.map_nil, List.append_nil, List.flatMap_nil, List.nil_append]
    rcases budget with - | ⟨b, budget⟩ <;> rcases rest with - | ⟨token, rest⟩
    · exact .ok
    · exact absurd hb (by simp)
    · exact .ok
    · rw [readLinks, hk.operator?_eq_none (stops_cons.mp hs)]
      exact .ok
  | cons link links ih =>
    rw [List.forall_mem_cons] at ho hd hr
    rcases budget with - | ⟨b, budget⟩
    · exact absurd hb (by simp [Link.text])
    · have hop : operator? link.operator.token = some link.operator :=
        (hk.read _ _).mpr ⟨ho.1, rfl⟩
      have hstop := hk.stops_links ho.2 hs
      have hlen : (links.flatMap Link.text ++ rest).length ≤ budget.length := by
        simp only [Link.text, List.flatMap_cons, List.length_append, List.length_cons] at hb ⊢
        omega
      have hih := ih ho.2 hd.2 hr.2 (link.node :: done) hlen
      simp only [List.flatMap_cons, Link.text, List.cons_append, List.append_assoc]
      rw [readLinks, hop]
      simp only [hd.1.expectOperand]
      refine (hr.1 _ hstop).bind ?_
      simpa [Link.node] using hih

theorem IsChain.reads_chain (hk : IsChain operator? operators operand whole) {read : Reader}
    {links : List Link} (ho : ∀ link ∈ links, link.operator ∈ operators)
    (hd : ∀ link ∈ links, Derives rule operand needed link.tokens link.tree)
    (hf : ∀ rest, Stops operand rest → Reads levels needed (read (tokens ++ rest)) (tree, rest))
    (hr : ∀ link ∈ links, ∀ rest, Stops operand rest →
      Reads levels needed (read (link.tokens ++ rest)) (link.tree, rest))
    (hs : Stops whole rest) :
    Reads levels needed
      (readChain operator? read (tokens ++ (links.flatMap Link.text ++ rest)))
      (tree.chained (links.map Link.node), rest) := by
  refine (hf _ (hk.stops_links ho hs)).bind ?_
  exact (hk.reads_links ho hd hr hs [] (Nat.le_refl _)).bind .ok

end Chain

/-! ## Operands -/

theorem span_percents (count : Nat) (hs : Stops .percentage rest) :
    (List.replicate count Token.percent ++ rest).takeWhile (· = .percent)
        = List.replicate count .percent ∧
      (List.replicate count Token.percent ++ rest).dropWhile (· = .percent) = rest := by
  have hp : ∀ token ∈ List.replicate count Token.percent, decide (token = .percent) = true :=
    fun token ht => decide_eq_true (List.eq_of_mem_replicate ht)
  rw [List.takeWhile_append_of_pos hp, List.dropWhile_append_of_pos hp]
  cases rest with
  | nil => simp
  | cons token rest =>
    have hne : token ≠ .percent := by simpa [stops_cons, continuations] using hs
    simp [hne]

theorem ReadsBack.percents (h : ReadsBack category needed tokens tree) (count : Nat)
    (hc : ∀ inner, reader inner category = primary inner)
    (hs : ∀ rest, Stops .percentage rest →
      Stops category (List.replicate count Token.percent ++ rest)) :
    ReadsBack .percentage needed (tokens ++ List.replicate count .percent)
      (tree.percentage count) := by
  intro levels rest hrest
  obtain ⟨ht, hd⟩ := span_percents count hrest
  rw [List.append_assoc]
  refine Reads.bind (hc _ ▸ h levels _ (hs rest hrest)) ?_
  simp only [ht, hd, List.length_replicate]
  exact .ok

theorem ReadsBack.root (h : ReadsBack .percentage needed tokens tree) (hne : tokens ≠ [])
    (bare : tokens.head? ≠ some .leftParen) :
    ReadsBack .bareRoot (needed + 1) (.function .sqrt :: tokens) (.call .sqrt tree) := by
  intro levels rest hrest
  obtain ⟨token, more, rfl⟩ := List.exists_cons_of_ne_nil hne
  show Reads _ _ (radicand (inside levels) (token :: (more ++ rest))) _
  unfold radicand
  split
  · next he => cases he
  · next he =>
    obtain ⟨rfl, -⟩ := List.cons.inj he
    exact absurd rfl bare
  · refine Reads.enter fun inner => ?_
    rw [level_eq_around]
    exact (h inner rest hrest).bind .ok

theorem primary_leftParen {inner : Option Level} {token : Token} (hne : token ≠ .rightParen) :
    primary inner (.leftParen :: token :: rest) = group inner .rightParen (token :: rest) := by
  cases token <;> first | rfl | exact absurd rfl hne

theorem primary_function {inner : Option Level} {name : MathFunction} :
    primary inner (.function name :: .leftParen :: rest)
      = Expr.argument inner name (.leftParen :: rest) := by
  cases name <;> rfl

theorem signed_of_begins {inner : Option Level} {token : Token}
    (hb : begins .percentage token = true) :
    signed inner (token :: rest) = percentageReader inner (token :: rest) := by
  cases token <;> first | rfl | cases hb

/-! ## All phrases -/

/-- **Every phrase is read**, with its own tree, wherever what follows it cannot go on with it. -/
theorem Derives.readsBack (h : Derives .operand category needed tokens tree) :
    ReadsBack category needed tokens tree := by
  induction h with
  | number | constant => exact fun _ _ _ => .ok
  | @brackets _ tokens _ inner ih =>
    intro levels rest _
    obtain ⟨token, more, rfl, hb⟩ := inner.exists_cons
    have hne : token ≠ .rightParen := fun he => absurd hb (by simp [he, begins_rightParen])
    simp only [List.cons_append, List.append_assoc, List.nil_append]
    show Reads _ _ (primary _ _) _
    rw [primary_leftParen hne]
    exact ih.group (List.cons_ne_nil _ _) (by decide)
  | bars inner ih =>
    intro levels rest _
    obtain ⟨token, more, rfl, -⟩ := inner.exists_cons
    simp only [List.cons_append, List.append_assoc, List.nil_append]
    exact (ih.group (List.cons_ne_nil _ _) (by decide)).bind .ok
  | @argument _ name _ _ inner ih =>
    intro levels rest _
    simp only [List.cons_append, List.append_assoc, List.nil_append]
    show Reads _ _ (primary _ _) _
    rw [primary_function]
    exact ih.argument inner name
  | root inner bare ih =>
    obtain ⟨_, _, rfl, -⟩ := inner.exists_cons
    exact ih.root (List.cons_ne_nil _ _) bare
  | percents count operand ih =>
    refine ih.percents count (fun _ => rfl) fun rest _ => ?_
    simp [Stops, continuations]
  | rootPercents count operand allowed ih =>
    obtain rfl := allowed rfl
    exact ih.percents 0 (fun _ => rfl) fun rest hs => hs
  | unsigned operand ih =>
    intro levels rest hs
    obtain ⟨token, more, rfl, hb⟩ := operand.exists_cons
    show Reads _ _ (signed _ (token :: (more ++ rest))) _
    rw [signed_of_begins hb]
    exact ih levels rest hs
  | minus operand ih =>
    intro levels rest hs
    show Reads _ _ (signed _ (.minus :: (_ ++ rest))) _
    simp only [signed, operand.expectOperand]
    refine Reads.enter fun inner => ?_
    rw [level_eq_around]
    exact (ih inner rest hs).bind .ok
  | plus operand ih =>
    intro levels rest hs
    show Reads _ _ (signed _ (.plus :: (_ ++ rest))) _
    simp only [signed, operand.expectOperand]
    refine Reads.enter fun inner => ?_
    rw [level_eq_around]
    exact ih inner rest hs
  | base operand ih =>
    intro levels rest hs
    refine (ih levels rest (hs.mono (by decide))).bind ?_
    dsimp only
    split
    · exact absurd (by decide) (stops_cons.mp hs)
    · exact .ok
  | power base exponent ihb ihe =>
    intro levels rest hs
    rw [List.append_assoc]
    refine (ihb levels _ (stops_cons.mpr (by decide))).bind ?_
    show Reads _ _ (do Expr.expectOperand (_ ++ rest); _) _
    simp only [exponent.expectOperand]
    refine Reads.enter fun inner => ?_
    rw [level_eq_around]
    exact (ihe inner rest hs).bind .ok
  | product links first operators operands ih ihs =>
    intro levels rest hs
    rw [List.append_assoc]
    exact isChain_product.reads_chain operators operands (ih levels) (fun l hl => ihs l hl levels) hs
  | sum links first operators operands ih ihs =>
    intro levels rest hs
    rw [List.append_assoc]
    exact isChain_sum.reads_chain operators operands (ih levels) (fun l hl => ihs l hl levels) hs

end PocketCalculator.Grammar
