import PocketCalculator.Expr.Reading

/-!
# The grammar of expressions

What it is for a list of tokens to be an expression, said without a reader. A derivation is a proof
of `Derives rule category levels tokens tree`: the tokens are a phrase of the category, they stand
for the tree, and no point of the phrase lies under more than `levels` levels. A level is a pair of
brackets, a pair of bars, the argument of a function, the operand of a bare root sign or of a sign,
and an exponent.

The grammar as it is written is ambiguous in one place: in `√9%` the percent sign may belong to the
operand of the root or to the root. `PercentRule` names the two readings. Under `.anywhere` both are
derivations, under `.operand` a bare root leaves no percent sign to what is around it. The rules
differ in trees only: `Derives.toOperand` turns a derivation of the one kind into one of the other
that has the same tokens and the same levels.

`Derives.exists_cons` says how phrases begin. It is what every look at the next token rests on.
-/

namespace PocketCalculator

def Operator.token : Operator → Token
  | add => .plus
  | sub => .minus
  | mul => .star
  | div => .slash
  | pow => .caret

namespace Grammar

/-! ## Derivations -/

/-- The categories of phrases. A bare root is a primary too; it stands apart because percent signs
after it are a matter of the `PercentRule`. -/
inductive Category where
  | sum
  | product
  | power
  | signed
  | percentage
  | primary
  | bareRoot
  deriving DecidableEq

/-- Whose the percent signs after the operand of a bare root are. -/
inductive PercentRule where
  /-- Some are the operand's and the others are the root's. -/
  | anywhere
  /-- All are the operand's. -/
  | operand
  deriving DecidableEq

/-- A link of a chain: an operator, and the operand after it with its tokens and its tree. -/
structure Link where
  operator : Operator
  tokens : List Token
  tree : Expr

def Link.text (link : Link) : List Token :=
  link.operator.token :: link.tokens

/-- A link as the tree holds it. -/
def Link.node (link : Link) : Operator × Expr :=
  (link.operator, link.tree)

def additive : List Operator :=
  [.add, .sub]

def multiplicative : List Operator :=
  [.mul, .div]

/-- The tokens are a phrase of the category with a tree, at most so many levels deep. -/
inductive Derives (rule : PercentRule) : Category → Nat → List Token → Expr → Prop where
  | number {levels : Nat} {value : Float} :
    Derives rule .primary levels [.number value] (.number value)
  | constant {levels : Nat} {name : Constant} :
    Derives rule .primary levels [.constant name] (.number name.value)
  | brackets {levels : Nat} {tokens : List Token} {tree : Expr}
    (inner : Derives rule .sum levels tokens tree) :
    Derives rule .primary (levels + 1) (.leftParen :: (tokens ++ [.rightParen])) tree
  | bars {levels : Nat} {tokens : List Token} {tree : Expr}
    (inner : Derives rule .sum levels tokens tree) :
    Derives rule .primary (levels + 1) (.bar :: (tokens ++ [.bar])) (.call .abs tree)
  | argument {levels : Nat} {name : MathFunction} {tokens : List Token} {tree : Expr}
    (inner : Derives rule .sum levels tokens tree) :
    Derives rule .primary (levels + 1) (.function name :: .leftParen :: (tokens ++ [.rightParen]))
      (.call name tree)
  | root {levels : Nat} {tokens : List Token} {tree : Expr}
    (inner : Derives rule .percentage levels tokens tree)
    (bare : tokens.head? ≠ some .leftParen) :
    Derives rule .bareRoot (levels + 1) (.function .sqrt :: tokens) (.call .sqrt tree)
  | percents {levels : Nat} {tokens : List Token} {tree : Expr} (count : Nat)
    (operand : Derives rule .primary levels tokens tree) :
    Derives rule .percentage levels (tokens ++ List.replicate count .percent)
      (tree.percentage count)
  | rootPercents {levels : Nat} {tokens : List Token} {tree : Expr} (count : Nat)
    (operand : Derives rule .bareRoot levels tokens tree)
    (allowed : rule = .operand → count = 0) :
    Derives rule .percentage levels (tokens ++ List.replicate count .percent)
      (tree.percentage count)
  | unsigned {levels : Nat} {tokens : List Token} {tree : Expr}
    (operand : Derives rule .percentage levels tokens tree) :
    Derives rule .signed levels tokens tree
  | minus {levels : Nat} {tokens : List Token} {tree : Expr}
    (operand : Derives rule .signed levels tokens tree) :
    Derives rule .signed (levels + 1) (.minus :: tokens) (.neg tree)
  | plus {levels : Nat} {tokens : List Token} {tree : Expr}
    (operand : Derives rule .signed levels tokens tree) :
    Derives rule .signed (levels + 1) (.plus :: tokens) tree
  | base {levels : Nat} {tokens : List Token} {tree : Expr}
    (operand : Derives rule .signed levels tokens tree) :
    Derives rule .power levels tokens tree
  | power {levels : Nat} {tokens exponentTokens : List Token} {tree exponentTree : Expr}
    (base : Derives rule .signed (levels + 1) tokens tree)
    (exponent : Derives rule .power levels exponentTokens exponentTree) :
    Derives rule .power (levels + 1) (tokens ++ .caret :: exponentTokens) (.pow tree exponentTree)
  | product {levels : Nat} {tokens : List Token} {tree : Expr} (links : List Link)
    (first : Derives rule .power levels tokens tree)
    (operators : ∀ link ∈ links, link.operator ∈ multiplicative)
    (operands : ∀ link ∈ links, Derives rule .power levels link.tokens link.tree) :
    Derives rule .product levels (tokens ++ links.flatMap Link.text)
      (tree.chained (links.map Link.node))
  | sum {levels : Nat} {tokens : List Token} {tree : Expr} (links : List Link)
    (first : Derives rule .product levels tokens tree)
    (operators : ∀ link ∈ links, link.operator ∈ additive)
    (operands : ∀ link ∈ links, Derives rule .product levels link.tokens link.tree) :
    Derives rule .sum levels (tokens ++ links.flatMap Link.text)
      (tree.chained (links.map Link.node))

variable {rule : PercentRule} {category : Category} {levels : Nat} {tokens : List Token}
  {tree : Expr}

/-! ## How phrases begin -/

/-- The tokens that an operand without signs begins with. -/
def beginsOperand : Token → Bool
  | .number _ | .constant _ | .function _ | .leftParen | .bar => true
  | _ => false

def begins : Category → Token → Bool
  | .sum, token | .product, token | .power, token | .signed, token =>
    beginsOperand token || token == .plus || token == .minus
  | .percentage, token | .primary, token | .bareRoot, token => beginsOperand token

/-- **No phrase is empty**, and its category tells which tokens it may begin with. -/
theorem Derives.exists_cons (h : Derives rule category levels tokens tree) :
    ∃ token rest, tokens = token :: rest ∧ begins category token = true := by
  induction h with
  | number | constant | brackets _ _ | bars _ _ | argument _ _ | root _ _ _ =>
    exact ⟨_, _, rfl, rfl⟩
  | minus _ _ | plus _ _ => exact ⟨_, _, rfl, rfl⟩
  | percents _ _ ih | rootPercents _ _ _ ih =>
    obtain ⟨token, rest, rfl, hb⟩ := ih
    exact ⟨token, _, rfl, hb⟩
  | unsigned _ ih =>
    obtain ⟨token, rest, rfl, hb⟩ := ih
    exact ⟨token, rest, rfl, by simp_all [begins]⟩
  | base _ ih => exact ih
  | power _ _ ih _ | product _ _ _ _ ih _ | sum _ _ _ _ ih _ =>
    obtain ⟨token, rest, rfl, hb⟩ := ih
    exact ⟨token, _, rfl, hb⟩

/-- A phrase does not begin with a closing bracket, which is what every look behind an operator
and behind an opening bracket asks. -/
theorem begins_rightParen : begins category .rightParen = false := by
  cases category <;> rfl

/-! ## The two percent rules -/

/-- Under the rule `.operand` percent signs can be added to a percentage: they go to the innermost
operand that is not a bare root. -/
theorem Derives.addPercents (h : Derives .operand .percentage levels tokens tree) (count : Nat) :
    ∃ tree', Derives .operand .percentage levels (tokens ++ List.replicate count .percent) tree' := by
  induction levels using Nat.strongRecOn generalizing tokens tree with
  | _ levels ih =>
    cases h with
    | percents m hp =>
      rw [List.append_assoc, List.replicate_append_replicate]
      exact ⟨_, .percents (m + count) hp⟩
    | rootPercents m hr hm =>
      obtain rfl : m = 0 := hm rfl
      cases hr with
      | root inner bare =>
        obtain ⟨tree', inner'⟩ := ih _ (Nat.lt_succ_self _) inner
        obtain ⟨token, rest, rfl, -⟩ := inner.exists_cons
        have hroot := Derives.root inner' (by simpa using bare)
        exact ⟨_, by simpa using Derives.rootPercents 0 hroot (fun _ => rfl)⟩

/-- Links whose operands are phrases under one rule can be given trees under another. -/
theorem exists_links {rule' : PercentRule} {operators : List Operator} {links : List Link}
    (ho : ∀ link ∈ links, link.operator ∈ operators)
    (h : ∀ link ∈ links, ∃ tree, Derives rule' category levels link.tokens tree) :
    ∃ links' : List Link, links'.flatMap Link.text = links.flatMap Link.text ∧
      (∀ link ∈ links', link.operator ∈ operators) ∧
      ∀ link ∈ links', Derives rule' category levels link.tokens link.tree := by
  induction links with
  | nil => exact ⟨[], rfl, by simp, by simp⟩
  | cons link links ih =>
    rw [List.forall_mem_cons] at ho h
    obtain ⟨links', ht, ho', hd⟩ := ih ho.2 h.2
    obtain ⟨tree, htree⟩ := h.1
    refine ⟨⟨link.operator, link.tokens, tree⟩ :: links', ?_, ?_, ?_⟩
    · simp [Link.text, ht]
    · exact List.forall_mem_cons.mpr ⟨ho.1, ho'⟩
    · exact List.forall_mem_cons.mpr ⟨htree, hd⟩

/-- **The rules accept the same tokens.** A derivation in which percent signs go anywhere can be
rearranged so that none is left to a bare root, and it gets no deeper by that. -/
theorem Derives.toOperand (h : Derives rule category levels tokens tree) :
    ∃ tree', Derives .operand category levels tokens tree' := by
  induction h with
  | number => exact ⟨_, .number⟩
  | constant => exact ⟨_, .constant⟩
  | brackets _ ih =>
    obtain ⟨_, ih⟩ := ih
    exact ⟨_, .brackets ih⟩
  | bars _ ih =>
    obtain ⟨_, ih⟩ := ih
    exact ⟨_, .bars ih⟩
  | argument _ ih =>
    obtain ⟨_, ih⟩ := ih
    exact ⟨_, .argument ih⟩
  | root _ bare ih =>
    obtain ⟨_, ih⟩ := ih
    exact ⟨_, .root ih bare⟩
  | percents count _ ih =>
    obtain ⟨_, ih⟩ := ih
    exact ⟨_, .percents count ih⟩
  | rootPercents count _ _ ih =>
    -- The signs after the root are handed on to its operand.
    obtain ⟨_, ih⟩ := ih
    have bare := Derives.rootPercents 0 ih fun _ => rfl
    rw [List.replicate_zero, List.append_nil] at bare
    exact bare.addPercents count
  | unsigned _ ih =>
    obtain ⟨_, ih⟩ := ih
    exact ⟨_, .unsigned ih⟩
  | minus _ ih =>
    obtain ⟨_, ih⟩ := ih
    exact ⟨_, .minus ih⟩
  | plus _ ih =>
    obtain ⟨_, ih⟩ := ih
    exact ⟨_, .plus ih⟩
  | base _ ih =>
    obtain ⟨_, ih⟩ := ih
    exact ⟨_, .base ih⟩
  | power _ _ ihb ihe =>
    obtain ⟨_, ihb⟩ := ihb
    obtain ⟨_, ihe⟩ := ihe
    exact ⟨_, .power ihb ihe⟩
  | product links _ operators _ ih ihs =>
    obtain ⟨_, ih⟩ := ih
    obtain ⟨links', ht, ho, hd⟩ := exists_links operators ihs
    rw [← ht]
    exact ⟨_, .product links' ih ho hd⟩
  | sum links _ operators _ ih ihs =>
    obtain ⟨_, ih⟩ := ih
    obtain ⟨links', ht, ho, hd⟩ := exists_links operators ihs
    rw [← ht]
    exact ⟨_, .sum links' ih ho hd⟩

/-- A derivation that leaves no percent sign to a bare root is one where they go anywhere. -/
theorem Derives.ofOperand (h : Derives .operand category levels tokens tree) :
    Derives .anywhere category levels tokens tree := by
  induction h with
  | number => exact .number
  | constant => exact .constant
  | brackets _ ih => exact .brackets ih
  | bars _ ih => exact .bars ih
  | argument _ ih => exact .argument ih
  | root _ bare ih => exact .root ih bare
  | percents count _ ih => exact .percents count ih
  | rootPercents count _ _ ih => exact .rootPercents count ih nofun
  | unsigned _ ih => exact .unsigned ih
  | minus _ ih => exact .minus ih
  | plus _ ih => exact .plus ih
  | base _ ih => exact .base ih
  | power _ _ ihb ihe => exact .power ihb ihe
  | product links _ operators _ ih ihs => exact .product links ih operators ihs
  | sum links _ operators _ ih ihs => exact .sum links ih operators ihs

end Grammar

end PocketCalculator
