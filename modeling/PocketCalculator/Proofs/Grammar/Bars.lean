import Mathlib.Combinatorics.Enumerative.DyckWord
import PocketCalculator.Proofs.Grammar.LastOperand

/-!
# Bars that open and bars that close

A bar looks the same whether it opens an absolute value or closes one. Spelled out, a bar that opens is
the name of the function with an opening bracket, and one that closes is a closing bracket (`spell`).
What the bars of a sum do is a Dyck word, up where a bar opens and down where one closes: the one word
with which the spelled-out tokens are read as the same tree (`exists_bracketing`).
-/

namespace PocketCalculator.Grammar

variable {category : Category} {levels : Nat} {tokens more : List Token}
  {tree : Expr} {steps others : List DyckStep} {word : DyckWord}

/-! ## Bars spelled out -/

/-- A bar that opens an absolute value is a step up, and one that closes it a step down. -/
def spelling : DyckStep → List Token
  | .U => [.function .abs, .leftParen]
  | .D => [.rightParen]

/-- The tokens with their bars spelled out, one step of the list for each bar. -/
def spell : List DyckStep → List Token → List Token
  | _, [] => []
  | step :: steps, .bar :: tokens => spelling step ++ spell steps tokens
  | steps, token :: tokens => token :: spell steps tokens

theorem spell_cons {token : Token} (h : token ≠ .bar) (steps : List DyckStep)
    (tokens : List Token) : spell steps (token :: tokens) = token :: spell steps tokens := by
  cases steps with
  | nil => cases token <;> rfl
  | cons => cases token <;> first | rfl | exact absurd rfl h

theorem spell_nil (tokens : List Token) : spell [] tokens = tokens := by
  induction tokens with
  | nil => rfl
  | cons token tokens ih =>
    rw [spell, ih]
    nofun

theorem spell_append (h : steps.length = tokens.count .bar) :
    spell (steps ++ others) (tokens ++ more) = spell steps tokens ++ spell others more := by
  induction tokens generalizing steps with
  | nil =>
    rw [List.length_eq_zero_iff.mp h]
    rfl
  | cons token tokens ih =>
    by_cases htoken : token = .bar
    · subst htoken
      rw [List.count_cons_self] at h
      cases steps with
      | nil => cases h
      | cons step steps =>
        rw [List.cons_append, List.cons_append, spell, spell, ih (Nat.succ.inj h), List.append_assoc]
    · rw [List.count_cons_of_ne htoken] at h
      rw [List.cons_append, spell_cons htoken, spell_cons htoken, ih h, List.cons_append]

theorem spell_append_plain (h : steps.length = tokens.count .bar) (more : List Token) :
    spell steps (tokens ++ more) = spell steps tokens ++ more := by
  have happend : spell (steps ++ []) (tokens ++ more) = _ := spell_append h
  rwa [List.append_nil, spell_nil] at happend

/-- Spelling out makes no bracket at the beginning but one that was there. -/
theorem head?_spell (h : (spell steps tokens).head? = some .leftParen) :
    tokens.head? = some .leftParen := by
  cases tokens with
  | nil =>
    rw [spell] at h
    exact h
  | cons token tokens =>
    by_cases htoken : token = .bar
    · subst htoken
      cases steps with
      | nil => cases h
      | cons step steps => cases step <;> cases h
    · rwa [spell_cons htoken] at h

/-! ## Phrases spelled out -/

/-- With this word for its bars the phrase is one of the same tree. -/
structure Spelled (category : Category) (levels : Nat) (tokens : List Token)
    (tree : Expr) (word : DyckWord) : Prop where
  length : word.toList.length = tokens.count .bar
  derives : Derives .operand category levels (spell word.toList tokens) tree

theorem operator_ne_bar (operator : Operator) : operator.token ≠ .bar := by
  cases operator <;> nofun

/-- The links of a chain, with their bars spelled out. -/
theorem exists_spelled_links {operators : List Operator} {links : List Link}
    (ho : ∀ link ∈ links, link.operator ∈ operators)
    (h : ∀ link ∈ links, ∃ word, Spelled category levels link.tokens link.tree word) :
    ∃ (word : DyckWord) (links' : List Link),
      word.toList.length = (links.flatMap Link.text).count .bar ∧
      links'.flatMap Link.text = spell word.toList (links.flatMap Link.text) ∧
      links'.map Link.node = links.map Link.node ∧
      (∀ link ∈ links', link.operator ∈ operators) ∧
      ∀ link ∈ links', Derives .operand category levels link.tokens link.tree := by
  induction links with
  | nil => exact ⟨0, [], rfl, rfl, rfl, nofun, nofun⟩
  | cons link links ih =>
    rw [List.forall_mem_cons] at ho h
    obtain ⟨first, hfirst⟩ := h.1
    obtain ⟨word, links', hlength, htext, hnodes, ho', hlinks⟩ := ih ho.2 h.2
    have hoperator := operator_ne_bar link.operator
    have hcount : first.toList.length = link.text.count .bar := by
      rw [hfirst.length, Link.text, List.count_cons_of_ne hoperator]
    refine ⟨first + word, ⟨link.operator, spell first.toList link.tokens, link.tree⟩ :: links',
      ?_, ?_, ?_, List.forall_mem_cons.mpr ⟨ho.1, ho'⟩,
      List.forall_mem_cons.mpr ⟨hfirst.derives, hlinks⟩⟩
    · rw [List.flatMap_cons, List.count_append, ← hcount, ← hlength]
      exact List.length_append
    · rw [List.flatMap_cons, List.flatMap_cons, htext]
      show _ = spell (first.toList ++ word.toList) _
      rw [spell_append hcount, Link.text, Link.text, spell_cons hoperator]
    · rw [List.map_cons, List.map_cons, hnodes]
      rfl

theorem exists_spelled_chain {part whole : Category} {operators : List Operator}
    (hchain : Chains operators part whole) {links : List Link}
    (ho : ∀ link ∈ links, link.operator ∈ operators)
    (hfirst : ∃ word, Spelled part levels tokens tree word)
    (hlinks : ∀ link ∈ links, ∃ word, Spelled part levels link.tokens link.tree word) :
    ∃ word, Spelled whole levels (tokens ++ links.flatMap Link.text)
      (tree.chained (links.map Link.node)) word := by
  obtain ⟨first, hlength, hderives⟩ := hfirst
  obtain ⟨word, links', hlength', htext, hnodes, ho', hlinks'⟩ := exists_spelled_links ho hlinks
  refine ⟨first + word, ?_, ?_⟩
  · rw [List.count_append, ← hlength, ← hlength']
    exact List.length_append
  · show Derives _ _ _ (spell (first.toList ++ word.toList) _) _
    rw [spell_append hlength, ← htext, ← hnodes]
    exact hchain links' hderives ho' hlinks'

/-- **The bars of a phrase can be spelled out.** -/
theorem Derives.exists_spelled (h : Derives .operand category levels tokens tree) :
    ∃ word, Spelled category levels tokens tree word := by
  induction h with
  | number => exact ⟨0, rfl, .number⟩
  | constant => exact ⟨0, rfl, .constant⟩
  | brackets _ ih =>
    obtain ⟨word, hlength, hderives⟩ := ih
    refine ⟨word, by simpa using hlength, ?_⟩
    rw [spell_cons (by simp), spell_append_plain hlength]
    exact .brackets hderives
  | bars _ ih =>
    -- The one case with bars of its own: they go around the word of what is between them.
    obtain ⟨word, hlength, hderives⟩ := ih
    refine ⟨word.nest, ?_, ?_⟩
    · show (.U :: (word.toList ++ [.D])).length = _
      simp [hlength]
    · show Derives _ _ _ (spell (.U :: (word.toList ++ [.D])) _) _
      rw [spell, spell_append hlength]
      exact .argument hderives
  | argument _ ih =>
    obtain ⟨word, hlength, hderives⟩ := ih
    refine ⟨word, by simpa using hlength, ?_⟩
    rw [spell_cons (by simp), spell_cons (by simp), spell_append_plain hlength]
    exact .argument hderives
  | root _ bare ih =>
    obtain ⟨word, hlength, hderives⟩ := ih
    refine ⟨word, by simpa using hlength, ?_⟩
    rw [spell_cons (by simp)]
    exact .root hderives (mt head?_spell bare)
  | percents count _ ih =>
    obtain ⟨word, hlength, hderives⟩ := ih
    refine ⟨word, by simpa [List.count_replicate] using hlength, ?_⟩
    rw [spell_append_plain hlength]
    exact .percents count hderives
  | rootPercents count _ allowed ih =>
    obtain ⟨word, hlength, hderives⟩ := ih
    refine ⟨word, by simpa [List.count_replicate] using hlength, ?_⟩
    rw [spell_append_plain hlength]
    exact .rootPercents count hderives allowed
  | unsigned _ ih =>
    obtain ⟨word, hlength, hderives⟩ := ih
    exact ⟨word, hlength, .unsigned hderives⟩
  | minus _ ih =>
    obtain ⟨word, hlength, hderives⟩ := ih
    refine ⟨word, by simpa using hlength, ?_⟩
    rw [spell_cons (by simp)]
    exact .minus hderives
  | plus _ ih =>
    obtain ⟨word, hlength, hderives⟩ := ih
    refine ⟨word, by simpa using hlength, ?_⟩
    rw [spell_cons (by simp)]
    exact .plus hderives
  | base _ ih =>
    obtain ⟨word, hlength, hderives⟩ := ih
    exact ⟨word, hlength, .base hderives⟩
  | power _ _ ihbase ihexponent =>
    obtain ⟨word, hlength, hderives⟩ := ihbase
    obtain ⟨word', hlength', hderives'⟩ := ihexponent
    refine ⟨word + word', ?_, ?_⟩
    · rw [List.count_append, List.count_cons_of_ne (by simp), ← hlength, ← hlength']
      exact List.length_append
    · show Derives _ _ _ (spell (word.toList ++ word'.toList) _) _
      rw [spell_append hlength, spell_cons (by simp)]
      exact .power hderives hderives'
  | product links _ operators _ ih ihs => exact exists_spelled_chain Derives.product operators ih ihs
  | sum links _ operators _ ih ihs => exact exists_spelled_chain Derives.sum operators ih ihs

/-! ## One way only -/

/-- What may come next tells whether a bar opens or closes. -/
theorem spelling_unique {place : Place} {step step' : DyckStep} {rest rest' : List Token}
    (h : (place.walk (spelling step ++ rest)).isSome)
    (h' : (place.walk (spelling step' ++ rest')).isSome) : step = step' := by
  obtain ⟨next, groups⟩ := place
  cases step <;> cases step' <;> cases next <;> first | rfl | cases h | cases h'

/-- Only one way to spell out the bars can be walked from a place. -/
theorem spell_unique {place : Place} (h : steps.length = tokens.count .bar)
    (h' : others.length = tokens.count .bar) (hwalk : (place.walk (spell steps tokens)).isSome)
    (hwalk' : (place.walk (spell others tokens)).isSome) : steps = others := by
  induction tokens generalizing place steps others with
  | nil => rw [List.length_eq_zero_iff.mp h, List.length_eq_zero_iff.mp h']
  | cons token tokens ih =>
    by_cases htoken : token = .bar
    · subst htoken
      rw [List.count_cons_self] at h h'
      cases steps with
      | nil => cases h
      | cons step steps =>
        cases others with
        | nil => cases h'
        | cons step' others =>
          -- Both ways are at the same place still, so they agree on this bar and on what is behind it.
          rw [spell] at hwalk hwalk'
          obtain rfl := spelling_unique hwalk hwalk'
          rw [Place.walk_append] at hwalk hwalk'
          obtain ⟨next, hnext⟩ := Option.isSome_iff_exists.mp (Option.isSome_of_isSome_bind hwalk)
          rw [hnext] at hwalk hwalk'
          rw [ih (Nat.succ.inj h) (Nat.succ.inj h') hwalk hwalk']
    · rw [List.count_cons_of_ne htoken] at h h'
      rw [spell_cons htoken, Place.walk] at hwalk hwalk'
      obtain ⟨next, hnext⟩ := Option.isSome_iff_exists.mp (Option.isSome_of_isSome_bind hwalk)
      rw [hnext] at hwalk hwalk'
      exact ih h h' hwalk hwalk'

/-! ## What each bar does -/

/-- The bars do these steps in the sum with this tree: spelled out, the tokens are read as it. -/
structure Bracketing (tokens : List Token) (tree : Expr) (steps : List DyckStep) : Prop where
  length : steps.length = tokens.count .bar
  reads : Expr.ofTokens (spell steps tokens) = .ok tree

theorem Bracketing.walks (h : Bracketing tokens tree steps) :
    (Place.start.walk (spell steps tokens)).isSome := by
  have hwalk := (ofTokens_eq_ok_iff.mp h.reads).walk [] .operand (by decide)
  exact Option.isSome_of_eq_some hwalk

/-- **The bars of a sum open and close in one way, and that is a Dyck word.** -/
theorem exists_bracketing (h : Expr.ofTokens tokens = .ok tree) :
    ∃ word : DyckWord, ∀ steps, Bracketing tokens tree steps ↔ steps = word.toList := by
  obtain ⟨word, hlength, hderives⟩ := (ofTokens_eq_ok_iff.mp h).exists_spelled
  have hword : Bracketing tokens tree word.toList := ⟨hlength, ofTokens_eq_ok_iff.mpr hderives⟩
  refine ⟨word, fun steps => ⟨fun hsteps => ?_, ?_⟩⟩
  · exact spell_unique hsteps.length hlength hsteps.walks hword.walks
  · rintro rfl
    exact hword

/-! ## How deep a bar is -/

/-- The absolute values that are open behind these bars. -/
def openBars (steps : List DyckStep) : Nat :=
  steps.count .U - steps.count .D

/-- The absolute values around the one that a bar opens or closes, with these bars before it. -/
def barsAround (before : List DyckStep) : DyckStep → Nat
  | .U => openBars before
  | .D => openBars (before ++ [.D])

theorem length_eq_count (steps : List DyckStep) :
    steps.length = steps.count .U + steps.count .D := by
  induction steps with
  | nil => rfl
  | cons step steps ih =>
    cases step
    · simp [ih, Nat.add_right_comm]
    · simp [ih, Nat.add_assoc]

theorem count_down_le {before after : List DyckStep} (h : word.toList = before ++ after) :
    before.count .D ≤ before.count .U := by
  have hle := word.count_D_le_count_U before.length
  rwa [h, List.take_left] at hle

/-- In the sum with this tree the bar behind the tokens `front` does this step, and the bars before it do
those in `before`. -/
structure BarAt (tokens : List Token) (tree : Expr) (front : List Token) (before : List DyckStep)
    (step : DyckStep) : Prop where
  isBar : front ++ [.bar] <+: tokens
  length : before.length = front.count .bar
  does : ∃ (word : DyckWord) (after : List DyckStep), word.toList = before ++ step :: after ∧
    ∀ steps, Bracketing tokens tree steps ↔ steps = word.toList

theorem Bracketing.barAt {front : List Token} {before after : List DyckStep} {step : DyckStep}
    (h : Bracketing tokens tree (before ++ step :: after)) (htree : Expr.ofTokens tokens = .ok tree)
    (hbar : front ++ [.bar] <+: tokens) (hlength : before.length = front.count .bar) :
    BarAt tokens tree front before step := by
  obtain ⟨word, hword⟩ := exists_bracketing htree
  exact ⟨hbar, hlength, word, after, ((hword _).mp h).symm, hword⟩

/-- Every bar of a sum opens an absolute value or closes one. -/
theorem exists_barAt {front : List Token} (h : Expr.ofTokens tokens = .ok tree)
    (hbar : front ++ [.bar] <+: tokens) : ∃ before step, BarAt tokens tree front before step := by
  obtain ⟨word, hword⟩ := exists_bracketing h
  have hsteps : Bracketing tokens tree word.toList := (hword _).mpr rfl
  have hlt : front.count .bar < word.toList.length := by
    have hle := hbar.sublist.count_le .bar
    rw [List.count_append, List.count_singleton_self, ← hsteps.length] at hle
    exact hle
  rw [← List.take_append_drop (front.count .bar) word.toList, List.drop_eq_getElem_cons hlt] at hsteps
  exact ⟨_, _, hsteps.barAt h hbar (List.length_take_of_le hlt.le)⟩

/-- What a bar does is found in any way to spell out the bars. -/
theorem BarAt.leads {front : List Token} {before : List DyckStep} {step : DyckStep}
    (h : BarAt tokens tree front before step) (hsteps : Bracketing tokens tree steps) :
    before ++ [step] <+: steps := by
  obtain ⟨word, after, hword, hiff⟩ := h.does
  exact ⟨after, by rw [(hiff steps).mp hsteps, hword, List.append_assoc, List.singleton_append]⟩

/-- **Where counting bars is right.** To take every second bar for one that closes is right about a bar
exactly if an even number of absolute values are around its own. -/
theorem BarAt.closes_iff_even {front : List Token} {before : List DyckStep} {step : DyckStep}
    (h : BarAt tokens tree front before step) :
    (step = .D ↔ Even (front.count .bar + 1)) ↔ Even (barsAround before step) := by
  obtain ⟨word, after, hword, -⟩ := h.does
  have hbefore := count_down_le hword
  rw [List.append_cons] at hword
  have hbehind := count_down_le hword
  rw [← h.length, length_eq_count, Nat.even_iff, Nat.even_iff]
  cases step with
  | U =>
    rw [barsAround, openBars]
    simp only [reduceCtorEq, false_iff]
    omega
  | D =>
    have hup : [DyckStep.D].count .U = 0 := rfl
    rw [List.count_append, List.count_append, List.count_singleton_self, hup] at hbehind
    rw [barsAround, openBars, List.count_append, List.count_append, List.count_singleton_self, hup]
    simp only [true_iff]
    omega

end PocketCalculator.Grammar
