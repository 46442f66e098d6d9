import PocketCalculator.Proofs.Buffer.Shape
import PocketCalculator.Proofs.Numeral

/-!
# Where two texts meet

An edit keeps what stands before a position and what stands after it, and puts something in between
or nothing. Both sides are well formed if the entry was (`meet_parts`). What they make together is
well formed again unless two operators or too many points come together where they meet, and that is
all there is to look at (`meet`).
-/

namespace PocketCalculator.Buffer

open Text (runBack runBack_append runBack_concat isRun_around)

/-- The text is well formed by itself. -/
def Formed (text : List Char) : Prop :=
  continuesWell 0 0 text = true

/-- The decimal points in the operand that a text begins with. -/
def pointsAfter (text : List Char) : Nat :=
  (text.takeWhile isSegmentChar).count '.'

/-! ## What stands before a text -/

theorem formed_append {left right : List Char} :
    Formed (left ++ right) ↔
      Formed left ∧ continuesWell (pointsBefore left) (operatorsBefore left) right = true := by
  have hleft := continuesWell_iff left []
  have hright := continuesWell_iff right left
  have hboth := continuesWell_iff (left ++ right) []
  simp only [List.nil_append] at hleft hboth
  unfold Formed
  refine Iff.trans hboth (Iff.trans ?_ (and_congr hleft hright).symm)
  constructor
  · intro h
    constructor
    · intro before c after ht
      exact h before c (after ++ right) (by rw [ht]; simp)
    · intro before c after ht
      exact h (left ++ before) c after (by rw [ht]; simp)
  · rintro ⟨hl, hr⟩ before c after ht
    -- The character belongs to the one side or to the other.
    rcases List.append_eq_append_iff.mp ht with ⟨more, rfl, hright⟩ | ⟨more, hleft, hafter⟩
    · exact hr more c after hright
    · rcases more with - | ⟨d, more⟩
      · rw [List.append_nil] at hleft
        have hfits := hr [] c after hafter.symm
        rwa [List.append_nil, hleft] at hfits
      · obtain ⟨rfl, -⟩ := List.cons.inj hafter
        exact hl before c more hleft

/-- Less before a text leaves it more room. -/
theorem continuesWell_mono {points points' operators operators' : Nat} {text : List Char}
    (hp : points' ≤ points) (ho : operators' ≤ operators)
    (h : continuesWell points operators text = true) :
    continuesWell points' operators' text = true := by
  induction text generalizing points points' operators operators' with
  | nil => rfl
  | cons c text ih =>
    rw [continuesWell] at h ⊢
    split at h
    · next hc =>
      rw [if_pos hc]
      simp only [Bool.and_eq_true, Bool.or_eq_true, beq_iff_eq] at h ⊢
      refine ⟨?_, ih (Nat.le_refl 0) (Nat.succ_le_succ ho) h.2⟩
      rcases h.1 with h0 | ⟨h1, hminus⟩
      · exact .inl (by omega)
      · by_cases hz : operators' = 0
        · exact .inl hz
        · exact .inr ⟨by omega, hminus⟩
    · next hc =>
      rw [if_neg hc]
      split at h
      · next hpoint =>
        rw [if_pos hpoint]
        simp only [Bool.and_eq_true, beq_iff_eq] at h ⊢
        exact ⟨by omega, h.2⟩
      · next hpoint =>
        rw [if_neg hpoint]
        exact ih hp (Nat.le_refl 0) h

/-- A well-formed text goes on well if its first operand has no point too many and no operator of
its own follows one. -/
theorem Formed.continuesWell {points operators : Nat} {text : List Char} (h : Formed text)
    (hp : points + pointsAfter text ≤ 1)
    (ho : operators = 0 ∨ ∀ c ∈ text.head?, Glyph.isOperator c = false) :
    continuesWell points operators text = true := by
  induction text generalizing points operators with
  | nil => rfl
  | cons c text ih =>
    unfold Formed at h
    rw [Buffer.continuesWell] at h ⊢
    by_cases hc : Glyph.isOperator c = true
    · -- Behind an operator it does not matter any more what was before.
      rw [if_pos hc] at h ⊢
      have hz : operators = 0 := by
        rcases ho with hz | hno
        · exact hz
        · rw [hno c rfl] at hc
          cases hc
      rw [hz]
      exact h
    · rw [if_neg hc] at h ⊢
      have hsegment : isSegmentChar c = true := by simpa [isSegmentChar] using hc
      rw [pointsAfter, List.takeWhile_cons_of_pos hsegment] at hp
      split at h
      · next hpoint =>
        rw [beq_iff_eq] at hpoint
        subst hpoint
        rw [List.count_cons_self] at hp
        have hz : points = 0 := by omega
        rw [if_pos (beq_self_eq_true '.'), hz]
        exact h
      · next hpoint =>
        rw [if_neg hpoint]
        rw [List.count_cons_of_ne (by simpa using hpoint)] at hp
        exact ih h hp (.inl rfl)

/-! ## Both sides of a position -/

/-- The two sides of a well-formed text, and the operand that they have in common. -/
theorem meet_parts {left right : List Char} (h : Formed (left ++ right)) :
    Formed left ∧ Formed right ∧ pointsBefore left + pointsAfter right ≤ 1 := by
  obtain ⟨hl, hr⟩ := formed_append.mp h
  refine ⟨hl, continuesWell_mono (Nat.zero_le _) (Nat.zero_le _) hr, ?_⟩
  obtain ⟨before, hleft, hrun⟩ := isRun_around isSegmentChar left right
  have hshape : WellShaped (left ++ right) :=
    (wellShaped_iff_fits _).mpr (by simpa using (continuesWell_iff _ []).mp h)
  have hsplit : left ++ right = before ++
      ((runBack isSegmentChar left).reverse ++ right.takeWhile isSegmentChar) ++
        right.dropWhile isSegmentChar := by
    rw [← List.append_assoc before, ← hleft, List.append_assoc left,
      List.takeWhile_append_dropWhile]
  have hcount := hshape.points _ _ _ hsplit hrun
  rw [List.count_append, List.count_reverse] at hcount
  exact hcount

/-- **Two well-formed texts make one** if no operators and no two points come together. -/
theorem meet {left right : List Char} (hl : Formed left) (hr : Formed right)
    (hpoints : pointsBefore left + pointsAfter right ≤ 1)
    (hoperators : operatorsBefore left = 0 ∨ ∀ c ∈ right.head?, Glyph.isOperator c = false) :
    Formed (left ++ right) :=
  formed_append.mpr ⟨hl, hr.continuesWell hpoints hoperators⟩

/-- Behind an operand there is no operator, and its points are those of the text and its own. -/
theorem before_append_operand (text : List Char) {operand : List Char}
    (hoperand : ∀ c ∈ operand, Glyph.isOperator c = false) (hne : operand ≠ []) :
    pointsBefore (text ++ operand) = pointsBefore text + operand.count '.' ∧
      operatorsBefore (text ++ operand) = 0 := by
  have hsegment : ∀ c ∈ operand, isSegmentChar c = true := by
    intro c hc
    rw [isSegmentChar, hoperand c hc, Bool.not_false]
  constructor
  · rw [pointsBefore, runBack_append hsegment, List.count_append, List.count_reverse, Nat.add_comm]
    rfl
  · rw [operatorsBefore]
    obtain ⟨front, c, rfl⟩ : ∃ front c, operand = front ++ [c] :=
      ⟨_, _, (List.dropLast_concat_getLast hne).symm⟩
    rw [← List.append_assoc, runBack_concat, hoperand c (by simp)]
    rfl

/-- In front of a text an operand is one with what the text begins with. -/
theorem pointsAfter_operand_append {operand : List Char}
    (hoperand : ∀ c ∈ operand, Glyph.isOperator c = false) (text : List Char) :
    pointsAfter (operand ++ text) = operand.count '.' + pointsAfter text := by
  have hsegment : ∀ c ∈ operand, isSegmentChar c = true := by
    intro c hc
    rw [isSegmentChar, hoperand c hc, Bool.not_false]
  rw [pointsAfter, List.takeWhile_append_of_pos hsegment, List.count_append]
  rfl

/-- An operand goes in at any place where its points are not too many. -/
theorem formed_insertOperand {left operand right : List Char} (h : Formed (left ++ right))
    (hoperand : ∀ c ∈ operand, Glyph.isOperator c = false) (hne : operand ≠ [])
    (hpoints : pointsBefore left + operand.count '.' + pointsAfter right ≤ 1) :
    Formed (left ++ operand ++ right) := by
  obtain ⟨hl, hr, -⟩ := meet_parts h
  obtain ⟨hp, ho⟩ := before_append_operand left hoperand hne
  refine meet ?_ hr (by omega) (.inl ho)
  exact formed_append.mpr ⟨hl, continuesWell_operand hoperand (by omega)⟩

/-- An operator goes behind anything but an operator. -/
theorem formed_concat {text : List Char} {operator : Char} (h : Formed text)
    (hoperator : Glyph.isOperator operator = true) (hbefore : operatorsBefore text = 0) :
    Formed (text ++ [operator]) := by
  refine formed_append.mpr ⟨h, ?_⟩
  rw [continuesWell, if_pos hoperator, hbefore]
  rfl

/-- An operator goes in where no other is on either side. -/
theorem formed_insertOperator {left right : List Char} {operator : Char} (hl : Formed left)
    (hr : Formed right) (hoperator : Glyph.isOperator operator = true)
    (hleft : operatorsBefore left = 0) (hright : ∀ c ∈ right.head?, Glyph.isOperator c = false)
    (hpoints : pointsAfter right ≤ 1) : Formed (left ++ [operator] ++ right) := by
  have hpoint := (before_operator left hoperator).1
  exact meet (formed_concat hl hoperator hleft) hr (by omega) (.inr hright)

/-- An operator with an operand goes in behind anything but an operator. The operand is then one of
its own with what follows. -/
theorem formed_insertOperation {left operand right : List Char} {operator : Char}
    (h : Formed (left ++ right)) (hoperator : Glyph.isOperator operator = true)
    (hleft : operatorsBefore left = 0) (hoperand : ∀ c ∈ operand, Glyph.isOperator c = false)
    (hne : operand ≠ []) (hpoints : operand.count '.' + pointsAfter right ≤ 1) :
    Formed (left ++ operator :: operand ++ right) := by
  obtain ⟨hl, hr, -⟩ := meet_parts h
  have hpoint := (before_operator left hoperator).1
  obtain ⟨hp, ho⟩ := before_append_operand (left ++ [operator]) hoperand hne
  rw [List.append_cons]
  refine meet ?_ hr (by omega) (.inl ho)
  exact formed_append.mpr
    ⟨formed_concat hl hoperator hleft, continuesWell_operand hoperand (by omega)⟩

end PocketCalculator.Buffer
