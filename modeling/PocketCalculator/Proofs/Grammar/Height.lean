import PocketCalculator.Proofs.Expr.Parts
import PocketCalculator.Proofs.Grammar.Acceptance

/-!
# How high trees get

The readers count levels, not nodes. Between one level and the next a tree has room for a sum, a
product, a power, a percentage and what carries the level, so five nodes to a level are the most
there can be (`Derives.height_le`). Sums, products and percentages are one node however long they
are. The height is how deep the evaluation of a tree calls itself (`evalWithin_eq`).
-/

namespace PocketCalculator

namespace Expr

/-! ## Height -/

mutual

/-- The number of nodes on the longest way down. -/
def height : Expr → Nat
  | number _ => 1
  | neg operand => height operand + 1
  | percent operand _ => height operand + 1
  | chain first links => max (height first) (linksHeight links) + 1
  | pow base exponent => max (height base) (height exponent) + 1
  | call _ argument => height argument + 1

/-- The height of the highest operand. -/
def linksHeight : List (Operator × Expr) → Nat
  | [] => 0
  | (_, operand) :: links => max (height operand) (linksHeight links)

end

theorem linksHeight_le {links : List (Operator × Expr)} {bound : Nat} :
    linksHeight links ≤ bound ↔ ∀ link ∈ links, link.2.height ≤ bound := by
  induction links with
  | nil => simp [linksHeight]
  | cons link links ih => rw [linksHeight, Nat.max_le, ih, List.forall_mem_cons]

theorem height_chained_le {first : Expr} {links : List (Operator × Expr)} {bound : Nat}
    (hfirst : first.height ≤ bound) (hlinks : ∀ link ∈ links, link.2.height ≤ bound) :
    (first.chained links).height ≤ bound + 1 := by
  rw [chained]
  split
  · exact Nat.le_succ_of_le hfirst
  · rw [height]
    exact Nat.succ_le_succ (Nat.max_le.mpr ⟨hfirst, linksHeight_le.mpr hlinks⟩)

theorem height_percentage_le (operand : Expr) (count : Nat) :
    (operand.percentage count).height ≤ operand.height + 1 := by
  rw [percentage]
  split
  · exact Nat.le_succ _
  · rw [height]

/-! ## The depth of evaluation -/

/-- The value of an expression, if it is found with at most `depth` evaluations inside each
other. -/
def evalWithin : Nat → Expr → ExceptT EvalError Option Float
  | 0, _ => ExceptT.mk none
  | _ + 1, number value => finite value
  | depth + 1, neg operand => do finite (-(← evalWithin depth operand))
  | depth + 1, percent operand count => do
    finite (hundredths (← evalWithin depth operand) count)
  | depth + 1, chain first links => do
    links.foldlM (fun v link => do link.1.apply v (← evalWithin depth link.2))
      (← evalWithin depth first)
  | depth + 1, pow base exponent => do
    let b ← evalWithin depth base
    let e ← evalWithin depth exponent
    Operator.pow.apply b e
  | depth + 1, call function argument => do
    finite (function.apply (← evalWithin depth argument))

/-- The depth was enough for the result. -/
def Completes (run : ExceptT EvalError Option Float) (result : Except EvalError Float) : Prop :=
  run = ExceptT.mk (some result)

theorem Completes.lift (result : Except EvalError Float) : Completes (liftM result) result :=
  rfl

theorem Completes.bind {run : ExceptT EvalError Option Float} {result : Except EvalError Float}
    {next : Float → ExceptT EvalError Option Float} {goOn : Float → Except EvalError Float}
    (hrun : Completes run result) (hnext : ∀ v, Completes (next v) (goOn v)) :
    Completes (run >>= next) (result >>= goOn) := by
  unfold Completes at *
  rw [hrun]
  cases result with
  | error cause => rfl
  | ok v => exact hnext v

theorem completes_links {depth : Nat} {links : List (Operator × Expr)}
    (h : ∀ link ∈ links, Completes (evalWithin depth link.2) link.2.eval) (v : Float) :
    Completes (links.foldlM (fun v link => do link.1.apply v (← evalWithin depth link.2)) v)
      (evalLinks v links) := by
  induction links generalizing v with
  | nil => rfl
  | cons link links ih =>
    obtain ⟨hlink, hlinks⟩ := List.forall_mem_cons.mp h
    rw [List.foldlM_cons, evalLinks, ← bind_assoc]
    exact (hlink.bind fun r => .lift _).bind fun w => ih hlinks w

/-- **The height is depth enough.** -/
theorem evalWithin_eq {e : Expr} :
    ∀ {depth : Nat}, e.height ≤ depth → Completes (evalWithin depth e) e.eval := by
  induction e using induction with
  | number value =>
    intro depth h
    rw [height] at h
    obtain ⟨depth, rfl⟩ := Nat.exists_eq_add_of_le' h
    rw [evalWithin, eval]
    exact .lift _
  | neg operand ih =>
    intro depth h
    rw [height] at h
    obtain ⟨depth, rfl⟩ := Nat.exists_eq_add_of_lt h
    rw [evalWithin, eval]
    exact (ih (Nat.le_add_right _ depth)).bind fun v => .lift _
  | percent operand count ih =>
    intro depth h
    rw [height] at h
    obtain ⟨depth, rfl⟩ := Nat.exists_eq_add_of_lt h
    rw [evalWithin, eval]
    exact (ih (Nat.le_add_right _ depth)).bind fun v => .lift _
  | chain first links ihfirst ihlinks =>
    intro depth h
    rw [height] at h
    obtain ⟨depth, rfl⟩ := Nat.exists_eq_add_of_lt h
    obtain ⟨hfirst, hlinks⟩ := Nat.max_le.mp (Nat.le_of_succ_le_succ h)
    rw [linksHeight_le] at hlinks
    rw [evalWithin, eval]
    exact (ihfirst hfirst).bind fun v =>
      completes_links (fun link hmem => ihlinks link hmem (hlinks link hmem)) v
  | pow base exponent ihbase ihexponent =>
    intro depth h
    rw [height] at h
    obtain ⟨depth, rfl⟩ := Nat.exists_eq_add_of_lt h
    obtain ⟨hbase, hexponent⟩ := Nat.max_le.mp (Nat.le_of_succ_le_succ h)
    rw [evalWithin, eval]
    exact (ihbase hbase).bind fun b => (ihexponent hexponent).bind fun e => .lift _
  | call function argument ih =>
    intro depth h
    rw [height] at h
    obtain ⟨depth, rfl⟩ := Nat.exists_eq_add_of_lt h
    rw [evalWithin, eval]
    exact (ih (Nat.le_add_right _ depth)).bind fun v => .lift _

/-! ## Chains that stand for something -/

/-- A chain has links, and its operators are of one precedence below that of powers. A percentage is
taken at least once. -/
def IsFlat : Expr → Prop
  | chain _ links => links ≠ [] ∧
    ((∀ link ∈ links, link.1 = .add ∨ link.1 = .sub) ∨
      ∀ link ∈ links, link.1 = .mul ∨ link.1 = .div)
  | percent _ count => 1 ≤ count
  | _ => True

theorem throughout_percentage {operand : Expr} (count : Nat) (h : Throughout IsFlat operand) :
    Throughout IsFlat (operand.percentage count) := by
  rw [percentage]
  split
  · exact h
  · next hcount => exact throughout_percent.mpr ⟨Nat.one_le_iff_ne_zero.mpr hcount, h⟩

end Expr

namespace Grammar

open PocketCalculator.Expr

variable {rule : PercentRule} {category : Category} {levels : Nat} {tokens : List Token}
  {tree : Expr}

theorem throughout_chained {first : Expr} {links : List Link} {operators : List Operator}
    (hprecedence : operators = additive ∨ operators = multiplicative)
    (hoperators : ∀ link ∈ links, link.operator ∈ operators)
    (hfirst : Throughout IsFlat first) (hlinks : ∀ link ∈ links, Throughout IsFlat link.tree) :
    Throughout IsFlat (first.chained (links.map Link.node)) := by
  rw [chained]
  split
  · exact hfirst
  · next hempty =>
    refine throughout_chain.mpr ⟨⟨?_, ?_⟩, hfirst, List.forall_mem_map.mpr hlinks⟩
    · rintro hnil
      rw [hnil] at hempty
      exact hempty rfl
    · rcases hprecedence with rfl | rfl
      · refine .inl (List.forall_mem_map.mpr fun link hmem => ?_)
        simpa [additive, Link.node] using hoperators link hmem
      · refine .inr (List.forall_mem_map.mpr fun link hmem => ?_)
        simpa [multiplicative, Link.node] using hoperators link hmem

/-- **Every chain of a derivation has links of one precedence**, and every percentage is one. -/
theorem Derives.isFlat (h : Derives rule category levels tokens tree) : Throughout IsFlat tree := by
  induction h with
  | number | constant => exact throughout_number.mpr trivial
  | brackets _ ih | unsigned _ ih | plus _ ih | base _ ih => exact ih
  | bars _ ih | argument _ ih | root _ _ ih => exact throughout_call.mpr ⟨trivial, ih⟩
  | percents count _ ih | rootPercents count _ _ ih => exact throughout_percentage count ih
  | minus _ ih => exact throughout_neg.mpr ⟨trivial, ih⟩
  | power _ _ ihbase ihexponent => exact throughout_pow.mpr ⟨trivial, ihbase, ihexponent⟩
  | product links _ operators _ ih ihs => exact throughout_chained (.inr rfl) operators ih ihs
  | sum links _ operators _ ih ihs => exact throughout_chained (.inl rfl) operators ih ihs

/-! ## The height of derivations -/

/-- The nodes that a phrase of the category can have on the way down to the next level. -/
def Category.nodes : Category → Nat
  | .primary | .bareRoot => 1
  | .percentage | .signed => 2
  | .power => 3
  | .product => 4
  | .sum => 5

/-- **Five nodes to a level**, and those of the category on top. -/
theorem Derives.height_le (h : Derives rule category levels tokens tree) :
    tree.height ≤ 5 * levels + category.nodes := by
  induction h with
  | number | constant =>
    rw [height]
    exact Nat.le_add_left ..
  | brackets _ ih => exact Nat.le_succ_of_le ih
  | bars _ ih | argument _ ih =>
    rw [height]
    exact Nat.succ_le_succ ih
  | root _ _ ih | minus _ ih =>
    rw [height]
    dsimp only [Category.nodes] at *
    omega
  | percents count _ ih | rootPercents count _ _ ih =>
    exact Nat.le_trans (height_percentage_le _ count) (Nat.succ_le_succ ih)
  | unsigned _ ih => exact ih
  | plus _ ih =>
    dsimp only [Category.nodes] at *
    omega
  | base _ ih => exact Nat.le_succ_of_le ih
  | power _ _ ihbase ihexponent =>
    rw [height]
    dsimp only [Category.nodes] at *
    omega
  | product links _ _ _ ih ihs | sum links _ _ _ ih ihs =>
    exact height_chained_le ih (List.forall_mem_map.mpr ihs)

/-- **Trees are shallow however long the tokens are.** What follows a tree down, as its evaluation
does, calls itself no deeper than the height of the tree, and that has a bound which is the same for
all tokens. -/
theorem ofTokens_shallow (h : ofTokens tokens = .ok tree) :
    tree.height ≤ 5 * (maxLevels + 1) ∧
      (evalWithin (5 * (maxLevels + 1)) tree).run = some tree.eval ∧
      Throughout IsFlat tree := by
  have hderives := ofTokens_eq_ok_iff.mp h
  have hheight : tree.height ≤ 5 * (maxLevels + 1) := hderives.height_le
  exact ⟨hheight, evalWithin_eq hheight, hderives.isFlat⟩

/-- A sum of percentages. -/
theorem percentages_shallow :
    ofTokens [.number 1, .percent, .plus, .number 2, .percent, .percent]
      = .ok (.chain (.percent (.number 1) 1) [(.add, .percent (.number 2) 2)]) ∧
    (Expr.chain (.percent (.number 1) 1) [(.add, .percent (.number 2) 2)]).height
      ≤ 5 * (maxLevels + 1) ∧
    (evalWithin (5 * (maxLevels + 1))
        (.chain (.percent (.number 1) 1) [(.add, .percent (.number 2) 2)])).run
      = some (Expr.chain (.percent (.number 1) 1) [(.add, .percent (.number 2) 2)]).eval ∧
    Throughout IsFlat (.chain (.percent (.number 1) 1) [(.add, .percent (.number 2) 2)]) := by
  have hread : ofTokens [.number 1, .percent, .plus, .number 2, .percent, .percent]
      = .ok (.chain (.percent (.number 1) 1) [(.add, .percent (.number 2) 2)]) := rfl
  exact ⟨hread, ofTokens_shallow hread⟩

end Grammar

end PocketCalculator
