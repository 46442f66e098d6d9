import PocketCalculator.Proofs.Grammar.Completeness
import PocketCalculator.Proofs.Text.Run

/-!
# What is read is a phrase

Whatever a reader takes off the front of the tokens is a phrase of its category with the tree that
it gives, not deeper than the levels that were left, and the tokens that it leaves cannot go on with
the phrase (`Takes`). The readers of one level are followed under the assumption that those of the
level inside are sound (`SoundLevel`), and `soundLevel` closes the circle by induction on the number
of levels.
-/

namespace PocketCalculator.Grammar

open PocketCalculator.Expr
open EvalError (bind_eq_ok)

/-- A phrase of the category was taken off the front of the tokens. -/
def Takes (category : Category) (levels : Nat) (tokens rest : List Token) (tree : Expr) : Prop :=
  ∃ used, tokens = used ++ rest ∧ Derives .operand category levels used tree ∧ Stops category rest

def Sound (category : Category) (levels : Nat) (read : Reader) : Prop :=
  ∀ tokens tree rest, read tokens = .ok (tree, rest) → Takes category levels tokens rest tree

/-- The readers of a level that the level around it calls are sound. -/
structure SoundLevel (levels : Nat) : Prop where
  sum : Sound .sum levels (level levels).sum
  power : Sound .power levels (level levels).power
  signed : Sound .signed levels (level levels).signed
  percentage : Sound .percentage levels (level levels).percentage

theorem enter_eq_ok {levels : Nat} {inner : Level} (h : enter (inside levels) = .ok inner) :
    ∃ n, levels = n + 1 ∧ inner = level n := by
  cases levels with
  | zero => cases h
  | succ n =>
    cases h
    exact ⟨n, rfl, rfl⟩

section Inside

variable {levels : Nat} {tokens rest : List Token} {tree : Expr}
  (inner : ∀ n, levels = n + 1 → SoundLevel n)

/-! ## Groups, arguments and roots -/

include inner in
theorem group_eq_ok {close : Token} (h : group (inside levels) close tokens = .ok (tree, rest)) :
    ∃ n used, levels = n + 1 ∧ tokens = used ++ close :: rest ∧
      Derives .operand .sum n used tree := by
  unfold group at h
  split at h
  · cases h
  · obtain ⟨lvl, hl, h⟩ := bind_eq_ok.mp h
    obtain ⟨n, hn, rfl⟩ := enter_eq_ok hl
    obtain ⟨⟨e, more⟩, he, h⟩ := bind_eq_ok.mp h
    obtain ⟨used, hu, hd, -⟩ := (inner n hn).sum _ _ _ he
    dsimp only at h
    split at h
    · cases h
    · split at h
      · next hc =>
        cases h
        exact ⟨n, used, hn, hc ▸ hu, hd⟩
      · cases h

include inner in
theorem argument_eq_ok {name : MathFunction}
    (h : argument (inside levels) name tokens = .ok (tree, rest)) :
    ∃ n used tree', levels = n + 1 ∧ tokens = .leftParen :: (used ++ .rightParen :: rest) ∧
      Derives .operand .sum n used tree' ∧ tree = .call name tree' := by
  unfold argument at h
  split at h
  · cases h
  · obtain ⟨⟨e, more⟩, he, h⟩ := bind_eq_ok.mp h
    cases h
    obtain ⟨n, used, hn, rfl, hd⟩ := group_eq_ok inner he
    exact ⟨n, used, e, hn, rfl, hd, rfl⟩
  · cases h

include inner in
theorem radicand_eq_ok (h : radicand (inside levels) tokens = .ok (tree, rest)) :
    (∃ n used tree', levels = n + 1 ∧ tokens = .leftParen :: (used ++ .rightParen :: rest) ∧
      Derives .operand .sum n used tree' ∧ tree = .call .sqrt tree') ∨
    ∃ n used tree', levels = n + 1 ∧ tokens = used ++ rest ∧ used.head? ≠ some .leftParen ∧
      Derives .operand .percentage n used tree' ∧ Stops .percentage rest ∧
      tree = .call .sqrt tree' := by
  unfold radicand at h
  split at h
  · cases h
  · exact .inl (argument_eq_ok inner h)
  · next hne =>
    obtain ⟨lvl, hl, h⟩ := bind_eq_ok.mp h
    obtain ⟨n, hn, rfl⟩ := enter_eq_ok hl
    obtain ⟨⟨e, more⟩, he, h⟩ := bind_eq_ok.mp h
    cases h
    obtain ⟨used, rfl, hd, hs⟩ := (inner n hn).percentage _ _ _ he
    obtain ⟨token, more, rfl, -⟩ := hd.exists_cons
    refine .inr ⟨n, _, e, hn, rfl, ?_, hd, hs, rfl⟩
    intro hp
    obtain rfl := Option.some.inj hp
    exact hne _ rfl

include inner in
theorem primary_eq_ok (h : primary (inside levels) tokens = .ok (tree, rest)) :
    ∃ used, tokens = used ++ rest ∧ (Derives .operand .primary levels used tree ∨
      Derives .operand .bareRoot levels used tree ∧ Stops .bareRoot rest) := by
  unfold primary at h
  split at h
  · cases h
  · cases h
    exact ⟨[_], rfl, .inl .number⟩
  · cases h
    exact ⟨[_], rfl, .inl .constant⟩
  · cases h
  · obtain ⟨n, used, rfl, rfl, hd⟩ := group_eq_ok inner h
    exact ⟨.leftParen :: (used ++ [.rightParen]), by simp, .inl (.brackets hd)⟩
  · obtain ⟨⟨e, more⟩, he, h⟩ := bind_eq_ok.mp h
    cases h
    obtain ⟨n, used, rfl, rfl, hd⟩ := group_eq_ok inner he
    exact ⟨.bar :: (used ++ [.bar]), by simp, .inl (.bars hd)⟩
  · rcases radicand_eq_ok inner h with
      ⟨n, used, tree', rfl, rfl, hd, rfl⟩ | ⟨n, used, tree', rfl, rfl, hb, hd, hs, rfl⟩
    · exact ⟨.function .sqrt :: .leftParen :: (used ++ [.rightParen]), by simp,
        .inl (.argument hd)⟩
    · exact ⟨.function .sqrt :: used, rfl, .inr ⟨.root hd hb, hs⟩⟩
  · obtain ⟨n, used, tree', rfl, rfl, hd, rfl⟩ := argument_eq_ok inner h
    exact ⟨.function _ :: .leftParen :: (used ++ [.rightParen]), by simp, .inl (.argument hd)⟩
  · cases h

/-! ## Operands with their percent signs, signs and powers -/

theorem takeWhile_percents (rest : List Token) :
    rest.takeWhile (· = .percent) = List.replicate (rest.takeWhile (· = .percent)).length .percent ∧
      Stops .percentage (rest.dropWhile (· = .percent)) := by
  constructor
  · refine List.eq_replicate_iff.mpr ⟨rfl, fun token ht => ?_⟩
    simpa using List.mem_takeWhile_imp ht
  · intro token ht hc
    have hn := Text.head?_dropWhile token ht
    simp [continuations] at hc
    simp [hc] at hn

include inner in
theorem sound_percentage : Sound .percentage levels (percentageReader (inside levels)) := by
  intro tokens tree rest h
  obtain ⟨⟨e, more⟩, he, h⟩ := bind_eq_ok.mp h
  cases h
  obtain ⟨used, rfl, hd⟩ := primary_eq_ok inner he
  obtain ⟨hp, hs⟩ := takeWhile_percents more
  refine ⟨used ++ more.takeWhile (· = .percent), ?_, ?_, hs⟩
  · rw [List.append_assoc, List.takeWhile_append_dropWhile]
  · rw [hp, List.length_replicate]
    rcases hd with hd | ⟨hd, hstop⟩
    · exact .percents _ hd
    · -- The operand of a bare root has taken all percent signs.
      refine .rootPercents _ hd fun _ => ?_
      rcases more with - | ⟨token, more⟩
      · rfl
      · have hne : token ≠ .percent := by simpa [continuations] using stops_cons.mp hstop
        simp [hne]

include inner in
theorem sound_signed : Sound .signed levels (signed (inside levels)) := by
  intro tokens tree rest h
  unfold signed at h
  split at h
  · obtain ⟨-, -, h⟩ := bind_eq_ok.mp h
    obtain ⟨lvl, hl, h⟩ := bind_eq_ok.mp h
    obtain ⟨n, rfl, rfl⟩ := enter_eq_ok hl
    obtain ⟨⟨e, more⟩, he, h⟩ := bind_eq_ok.mp h
    cases h
    obtain ⟨used, rfl, hd, hs⟩ := (inner n rfl).signed _ _ _ he
    exact ⟨.minus :: used, rfl, .minus hd, hs⟩
  · obtain ⟨-, -, h⟩ := bind_eq_ok.mp h
    obtain ⟨lvl, hl, h⟩ := bind_eq_ok.mp h
    obtain ⟨n, rfl, rfl⟩ := enter_eq_ok hl
    obtain ⟨used, rfl, hd, hs⟩ := (inner n rfl).signed _ _ _ h
    exact ⟨.plus :: used, rfl, .plus hd, hs⟩
  · obtain ⟨used, rfl, hd, hs⟩ := sound_percentage inner _ _ _ h
    exact ⟨used, rfl, .unsigned hd, hs⟩

include inner in
theorem sound_power : Sound .power levels (power (inside levels)) := by
  intro tokens tree rest h
  obtain ⟨⟨e, more⟩, he, hend⟩ := bind_eq_ok.mp h
  clear h
  obtain ⟨used, rfl, hd, hs⟩ := sound_signed inner _ _ _ he
  dsimp only at hend
  split at hend
  · obtain ⟨-, -, h⟩ := bind_eq_ok.mp hend
    obtain ⟨lvl, hl, h⟩ := bind_eq_ok.mp h
    obtain ⟨n, rfl, rfl⟩ := enter_eq_ok hl
    obtain ⟨⟨e', more'⟩, he', h⟩ := bind_eq_ok.mp h
    cases h
    obtain ⟨used', rfl, hd', hs'⟩ := (inner n rfl).power _ _ _ he'
    exact ⟨used ++ .caret :: used', by simp, .power hd hd', hs'⟩
  · next hne =>
    cases hend
    refine ⟨used, rfl, .base hd, fun token ht hc => ?_⟩
    rcases List.mem_cons.mp hc with rfl | hc
    · obtain ⟨more, rfl⟩ := List.head?_eq_some_iff.mp (Option.mem_def.mp ht)
      exact hne _ rfl
    · exact hs token ht hc

end Inside

/-! ## Chains -/

section Chain

variable {operator? : Token → Option Operator} {operators : List Operator}
  {operand whole : Category} {levels : Nat} {read : Reader}

/-- What goes on with the chain goes on with its last operand, or is an operator. -/
theorem IsChain.stops_whole (hk : IsChain operator? operators operand whole) {token : Token}
    {rest : List Token} (hs : Stops operand (token :: rest)) (hn : operator? token = none) :
    Stops whole (token :: rest) := by
  rw [stops_cons] at hs ⊢
  intro hc
  rcases (hk.whole token).mp hc with hc | ⟨operator, hm, rfl⟩
  · exact hs hc
  · rw [(hk.read _ operator).mpr ⟨hm, rfl⟩] at hn
    cases hn

/-- The links that are read are links, and nothing else is taken. -/
theorem IsChain.readLinks_eq_ok (hk : IsChain operator? operators operand whole)
    (hr : Sound operand levels read) {done links : List (Operator × Expr)}
    {budget tokens rest : List Token} (hb : tokens.length ≤ budget.length)
    (hs : Stops operand tokens)
    (h : readLinks operator? read done budget tokens = .ok (links, rest)) :
    ∃ more : List Link, tokens = more.flatMap Link.text ++ rest ∧
      links = done.reverse ++ more.map Link.node ∧ (∀ link ∈ more, link.operator ∈ operators) ∧
      (∀ link ∈ more, Derives .operand operand levels link.tokens link.tree) ∧
      Stops whole rest := by
  induction budget generalizing done tokens with
  | nil =>
    obtain rfl := List.length_eq_zero_iff.mp (Nat.le_zero.mp hb)
    cases h
    exact ⟨[], by simp, by simp, by simp, by simp, by simp [Stops]⟩
  | cons b budget ih =>
    rcases tokens with - | ⟨token, tokens⟩
    · cases h
      exact ⟨[], by simp, by simp, by simp, by simp, by simp [Stops]⟩
    · rw [readLinks] at h
      cases ho : operator? token with
      | none =>
        rw [ho] at h
        cases h
        exact ⟨[], by simp, by simp, by simp, by simp, hk.stops_whole hs ho⟩
      | some operator =>
        rw [ho] at h
        obtain ⟨hm, rfl⟩ := (hk.read _ _).mp ho
        obtain ⟨-, -, hstep⟩ := bind_eq_ok.mp h
        obtain ⟨⟨e, rest'⟩, he, hmore⟩ := bind_eq_ok.mp hstep
        clear h hstep
        obtain ⟨used, rfl, hd, hs'⟩ := hr _ _ _ he
        have hlen : rest'.length ≤ budget.length := by
          simp only [List.length_cons, List.length_append] at hb
          omega
        obtain ⟨more, rfl, rfl, hops, hds, hstop⟩ := ih hlen hs' hmore
        refine ⟨⟨operator, used, e⟩ :: more, ?_, ?_, ?_, ?_, hstop⟩
        · simp [Link.text]
        · simp [Link.node]
        · exact List.forall_mem_cons.mpr ⟨hm, hops⟩
        · exact List.forall_mem_cons.mpr ⟨hd, hds⟩

theorem IsChain.readChain_eq_ok (hk : IsChain operator? operators operand whole)
    (hr : Sound operand levels read) {tokens rest : List Token} {tree : Expr}
    (h : readChain operator? read tokens = .ok (tree, rest)) :
    ∃ first tree' links, tokens = first ++ List.flatMap Link.text links ++ rest ∧
      Derives .operand operand levels first tree' ∧
      (∀ link ∈ links, link.operator ∈ operators) ∧
      (∀ link ∈ links, Derives .operand operand levels link.tokens link.tree) ∧
      tree = tree'.chained (links.map Link.node) ∧ Stops whole rest := by
  obtain ⟨⟨e, more⟩, he, htail⟩ := bind_eq_ok.mp h
  obtain ⟨⟨nodes, rest'⟩, hl, hend⟩ := bind_eq_ok.mp htail
  cases hend
  obtain ⟨used, rfl, hd, hs⟩ := hr _ _ _ he
  obtain ⟨links, rfl, rfl, hops, hds, hstop⟩ := hk.readLinks_eq_ok hr (Nat.le_refl _) hs hl
  exact ⟨used, e, links, by simp, hd, hops, hds, rfl, hstop⟩

end Chain

/-! ## All levels -/

section Inside

variable {levels : Nat} (inner : ∀ n, levels = n + 1 → SoundLevel n)

include inner in
theorem sound_product : Sound .product levels (product (inside levels)) := by
  intro tokens tree rest h
  obtain ⟨first, tree', links, rfl, hd, hops, hds, rfl, hs⟩ :=
    isChain_product.readChain_eq_ok (sound_power inner) h
  exact ⟨_, rfl, .product links hd hops hds, hs⟩

include inner in
theorem sound_sum : Sound .sum levels (sum (inside levels)) := by
  intro tokens tree rest h
  obtain ⟨first, tree', links, rfl, hd, hops, hds, rfl, hs⟩ :=
    isChain_sum.readChain_eq_ok (sound_product inner) h
  exact ⟨_, rfl, .sum links hd hops hds, hs⟩

end Inside

/-- **Every level is sound.** Its readers call those of the level inside it only. -/
theorem soundLevel (levels : Nat) : SoundLevel levels := by
  induction levels with
  | zero =>
    have inner : ∀ n, 0 = n + 1 → SoundLevel n := fun n hn => absurd hn (by simp)
    exact ⟨sound_sum inner, sound_power inner, sound_signed inner, sound_percentage inner⟩
  | succ levels ih =>
    have inner : ∀ n, levels + 1 = n + 1 → SoundLevel n := fun n hn => Nat.succ.inj hn ▸ ih
    exact ⟨sound_sum inner, sound_power inner, sound_signed inner, sound_percentage inner⟩

end PocketCalculator.Grammar
