import Mathlib.Logic.Function.Iterate
import PocketCalculator.Proofs.Grammar.LastOperand

/-!
# A number at the end of a sum

A sum that ends with a number, and not with one under a bare root sign, has that number with some signs
before it as its last operand (`Derives.signed_number`). One sign more or less before the number is one
negation more or less around it, and nothing else in the tree changes (`number_negated`). The one sign
that cannot be taken away is a minus that is no sign but a subtraction.
-/

namespace PocketCalculator.Grammar

open PocketCalculator.Expr

variable {rule : PercentRule} {levels : Nat} {tokens front signs : List Token} {tree : Expr}
  {value : Float}

/-- Signs that may stand before an operand. -/
def AreSigns (signs : List Token) : Prop :=
  ∀ token ∈ signs, token = .minus ∨ token = .plus

/-- A number with these signs before it. -/
def signedNumber (signs : List Token) (value : Float) : Expr :=
  Expr.neg^[signs.count .minus] (.number value)

theorem signedNumber_minus (signs : List Token) (value : Float) :
    signedNumber (.minus :: signs) value = .neg (signedNumber signs value) := by
  rw [signedNumber, List.count_cons_self, Function.iterate_succ_apply', signedNumber]

theorem signedNumber_plus (signs : List Token) (value : Float) :
    signedNumber (.plus :: signs) value = signedNumber signs value := by
  rw [signedNumber, List.count_cons_of_ne (by decide), signedNumber]

/-! ## Signs before a number -/

theorem Derives.of_signs (h : AreSigns signs) (hle : signs.length ≤ levels) :
    Derives .operand .signed levels (signs ++ [.number value]) (signedNumber signs value) := by
  induction signs generalizing levels with
  | nil => exact .unsigned (.percents 0 .number)
  | cons token signs ih =>
    obtain ⟨hsign, hsigns⟩ := List.forall_mem_cons.mp h
    obtain ⟨levels, rfl⟩ := Nat.exists_eq_add_of_lt hle
    have hrest : Derives .operand .signed (signs.length + levels) (signs ++ [.number value])
        (signedNumber signs value) := ih hsigns (Nat.le_add_right ..)
    rcases hsign with rfl | rfl
    · rw [signedNumber_minus]
      exact .minus hrest
    · rw [signedNumber_plus]
      exact .plus hrest

/-- Percent signs stand behind their operand. -/
theorem replicate_percent_eq_nil {count : Nat}
    (h : tokens ++ List.replicate count .percent = front ++ [.number value]) : count = 0 := by
  cases count with
  | zero => rfl
  | succ count =>
    rw [List.replicate_succ', ← List.append_assoc] at h
    obtain ⟨-, hlast⟩ := List.append_inj' h rfl
    cases hlast

theorem Derives.primary_number (h : Derives rule .primary levels tokens tree)
    (htokens : tokens = front ++ [.number value]) : front = [] ∧ tree = .number value := by
  have hlast : tokens.getLast? = some (.number value) := by
    rw [htokens, List.getLast?_concat]
  cases h with
  | number =>
    rw [← List.nil_append [_]] at htokens
    obtain ⟨rfl, hvalue⟩ := List.append_inj' htokens rfl
    cases hvalue
    exact ⟨rfl, rfl⟩
  | constant => cases hlast
  | brackets _ | bars _ =>
    rw [← List.cons_append, List.getLast?_concat] at hlast
    cases hlast
  | argument _ =>
    rw [← List.cons_append, ← List.cons_append, List.getLast?_concat] at hlast
    cases hlast

theorem getLast?_cons_ne {first last : Token} {more : List Token}
    (h : (first :: more).getLast? ≠ some last) : more.getLast? ≠ some last := by
  intro hmore
  rw [List.getLast?_cons, hmore] at h
  exact h rfl

/-- Before a number that is no radicand there is nothing else in a percentage. -/
theorem Derives.percentage_number (h : Derives rule .percentage levels tokens tree)
    (htokens : tokens = front ++ [.number value]) (hroot : front.getLast? ≠ some (.function .sqrt)) :
    front = [] ∧ tree = .number value := by
  induction levels using Nat.strongRecOn generalizing tokens tree front with
  | _ levels ih =>
    cases h with
    | percents count hprimary =>
      obtain rfl := replicate_percent_eq_nil htokens
      rw [List.replicate_zero, List.append_nil] at htokens
      exact hprimary.primary_number htokens
    | rootPercents count hbare _ =>
      obtain rfl := replicate_percent_eq_nil htokens
      rw [List.replicate_zero, List.append_nil] at htokens
      cases hbare with
      | root hradicand _ =>
        cases front with
        | nil => cases htokens
        | cons first front =>
          -- The radicand ends with the number too, so the number is all of it.
          obtain ⟨rfl, hrest⟩ := List.cons.inj htokens
          obtain ⟨rfl, -⟩ := ih _ (Nat.lt_succ_self _) hradicand hrest (getLast?_cons_ne hroot)
          exact absurd rfl hroot

/-- **Before a number at the end of an operand there are only signs.** -/
theorem Derives.signed_number (h : Derives rule .signed levels tokens tree)
    (htokens : tokens = front ++ [.number value]) (hroot : front.getLast? ≠ some (.function .sqrt)) :
    AreSigns front ∧ front.length ≤ levels ∧ tree = signedNumber front value := by
  induction levels using Nat.strongRecOn generalizing tokens tree front with
  | _ levels ih =>
    cases h with
    | unsigned hpercentage =>
      obtain ⟨rfl, rfl⟩ := hpercentage.percentage_number htokens hroot
      exact ⟨nofun, Nat.zero_le _, rfl⟩
    | minus hoperand =>
      cases front with
      | nil => cases htokens
      | cons sign front =>
        obtain ⟨rfl, hrest⟩ := List.cons.inj htokens
        obtain ⟨hsigns, hle, rfl⟩ :=
          ih _ (Nat.lt_succ_self _) hoperand hrest (getLast?_cons_ne hroot)
        exact ⟨List.forall_mem_cons.mpr ⟨.inl rfl, hsigns⟩, Nat.succ_le_succ hle,
          (signedNumber_minus front value).symm⟩
    | plus hoperand =>
      cases front with
      | nil => cases htokens
      | cons sign front =>
        obtain ⟨rfl, hrest⟩ := List.cons.inj htokens
        obtain ⟨hsigns, hle, rfl⟩ :=
          ih _ (Nat.lt_succ_self _) hoperand hrest (getLast?_cons_ne hroot)
        exact ⟨List.forall_mem_cons.mpr ⟨.inr rfl, hsigns⟩, Nat.succ_le_succ hle,
          (signedNumber_plus front value).symm⟩

/-! ## One sign more or less -/

/-- Before a number at the end of a sum there are some tokens and the signs of the number, for which
`inner` levels are left. Any signs may stand in their place. -/
structure EndsSigned (inner : Nat) (before signs : List Token) (spine : Spine) (value : Float) :
    Prop where
  areSigns : AreSigns signs
  fits : signs.length ≤ inner
  parted : Parted before
  leads : ∀ {others : List Token} {more : Nat}, AreSigns others → others.length ≤ more →
    inner ≤ more → Derives .operand .sum (more + spine.levels) (before ++ (others ++ [.number value]))
      (spine.fill (signedNumber others value))

theorem Derives.sum_number (h : Derives .operand .sum levels (front ++ [.number value]) tree)
    (hroot : front.getLast? ≠ some (.function .sqrt)) :
    ∃ inner before signs spine, levels = inner + Spine.levels spine ∧ front = before ++ signs ∧
      tree = spine.fill (signedNumber signs value) ∧ EndsSigned inner before signs spine value := by
  obtain ⟨inner, before, last, spine, operand, hlevels, htokens, rfl, hsplits, hparted⟩ :=
    h.hasLastParted (by simp)
  obtain ⟨signs, rfl, rfl⟩ : ∃ signs, last = signs ++ [.number value] ∧ front = before ++ signs := by
    rcases List.eq_nil_or_concat' last with rfl | ⟨signs, token, rfl⟩
    · obtain ⟨_, _, hcons, -⟩ := hsplits.signed.exists_cons
      cases hcons
    · rw [← List.append_assoc] at htokens
      obtain ⟨rfl, htoken⟩ := List.append_inj' htokens rfl
      exact ⟨signs, by rw [List.singleton_inj.mp htoken], rfl⟩
  have hroot' : signs.getLast? ≠ some (.function .sqrt) := by
    intro hsigns
    rw [List.getLast?_append, hsigns] at hroot
    exact hroot rfl
  obtain ⟨hsigns, hfits, rfl⟩ := hsplits.signed.signed_number rfl hroot'
  refine ⟨inner, before, signs, spine, hlevels, rfl, rfl, hsigns, hfits, hparted, ?_⟩
  exact fun hothers hlength hmore => hsplits.leads hmore (.base (.of_signs hothers hlength))

/-- Behind these tokens a minus is a sign: there are none, or they end with an operator. -/
def TakesSign (tokens : List Token) : Prop :=
  ∀ token ∈ tokens.getLast?, ∃ operator : Operator, token = operator.token

/-- Where a minus is a sign, nothing is complete that it could subtract from. -/
theorem TakesSign.not_walks (h : TakesSign tokens) : ¬ Walks .sum tokens := by
  intro hwalks
  have hwalk := hwalks [] .operand (by decide)
  rcases List.eq_nil_or_concat' tokens with rfl | ⟨front, token, rfl⟩
  · cases hwalk
  · obtain ⟨operator, rfl⟩ := h token List.getLast?_concat
    rw [Place.walk_append, Option.bind_eq_some_iff] at hwalk
    obtain ⟨⟨next, groups⟩, -, hstep⟩ := hwalk
    cases next <;> cases operator <;> cases hstep

/-- **One sign before the number is one negation around it.** A minus more before the number at the end
makes the tree with one more negation of that number, or too deep a sum. A minus less, if it was a sign,
makes the tree with one negation less. -/
theorem number_negated (h : ofTokens (front ++ [.number value]) = .ok tree)
    (hroot : front.getLast? ≠ some (.function .sqrt)) :
    ∃ spine count, tree = Spine.fill spine (Expr.neg^[count] (.number value)) ∧
      (ofTokens (front ++ [.minus, .number value]) =
          .ok (spine.fill (Expr.neg^[count + 1] (.number value))) ∨
        ofTokens (front ++ [.minus, .number value]) = .error .tooDeep) ∧
      ∀ back, front = back ++ [.minus] → TakesSign back → ∃ fewer, count = fewer + 1 ∧
        ofTokens (back ++ [.number value]) =
          .ok (spine.fill (Expr.neg^[fewer] (.number value))) := by
  obtain ⟨inner, before, signs, spine, hlevels, rfl, rfl, hends⟩ :=
    (ofTokens_eq_ok_iff.mp h).sum_number hroot
  refine ⟨spine, signs.count Token.minus, rfl, ?_, fun back hback htakes => ?_⟩
  · have hsigns : AreSigns (signs ++ [.minus]) :=
      List.forall_mem_append.mpr ⟨hends.areSigns, List.forall_mem_singleton.mpr (.inl rfl)⟩
    have hfits : (signs ++ [Token.minus]).length ≤ inner + 1 := by
      rw [List.length_append]
      exact Nat.succ_le_succ hends.fits
    have hread := (hends.leads hsigns hfits (Nat.le_succ inner)).ofTokens_reads
    rw [signedNumber, List.count_append, List.append_assoc signs, ← List.append_assoc before] at hread
    exact hread.imp_right And.right
  · rcases List.eq_nil_or_concat' signs with rfl | ⟨fewer, sign, rfl⟩
    · -- The minus would be between the last operand and what is before it.
      rw [List.append_nil] at hback
      exact absurd (hends.parted back .minus hback) htakes.not_walks
    · rw [← List.append_assoc] at hback
      obtain ⟨rfl, hsign⟩ := List.append_inj' hback rfl
      obtain rfl := List.singleton_inj.mp hsign
      refine ⟨fewer.count Token.minus, List.count_append, ?_⟩
      have hfits : fewer.length ≤ inner := by
        have hfits := hends.fits
        rw [List.length_append] at hfits
        exact Nat.le_of_succ_le hfits
      rw [ofTokens_eq_ok_iff, hlevels, List.append_assoc]
      exact hends.leads (List.forall_mem_append.mp hends.areSigns).1 hfits (Nat.le_refl inner)

end PocketCalculator.Grammar
