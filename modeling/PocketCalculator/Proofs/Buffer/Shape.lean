import Mathlib.Data.List.Induction
import PocketCalculator.Buffer
import PocketCalculator.Proofs.Text.Run

/-!
# The shape of an entry

An entry is cut into operands and runs of operators, both as far as they reach. It is well shaped if
no operand has two points and every run of operators is one operator, which a minus may follow
(`WellShaped`). `isWellFormed_iff` says that this is what the editor checks. Between the two stands
the view from a single character (`Fits`): a point may stand there if its operand has none before it,
and an operator if none stands before it, or only one and it is a minus.
-/

namespace PocketCalculator.Buffer

open Text (IsRun runBack runBack_append runBack_concat runBack_eq_nil isRun_around)

/-- One operator, or one and a minus behind it. -/
def IsSignedOperator (run : List Char) : Prop :=
  (∃ c, run = [c]) ∨ ∃ c, run = [c, '-']

/-- No operand has two points, and no operators pile up. -/
structure WellShaped (text : List Char) : Prop where
  points : ∀ before run after, text = before ++ run ++ after →
    IsRun isSegmentChar before run after → run.count '.' ≤ 1
  operators : ∀ before run after, text = before ++ run ++ after →
    IsRun Glyph.isOperator before run after → run ≠ [] → IsSignedOperator run

/-! ## The view from a character -/

def pointsBefore (text : List Char) : Nat :=
  (runBack isSegmentChar text).count '.'

def operatorsBefore (text : List Char) : Nat :=
  (runBack Glyph.isOperator text).length

/-- A character that may follow a text. -/
def Fits (text : List Char) (c : Char) : Prop :=
  (Glyph.isOperator c = true → operatorsBefore text = 0 ∨ operatorsBefore text = 1 ∧ c = '-') ∧
    (c = '.' → pointsBefore text = 0)

theorem before_operator {c : Char} (text : List Char) (h : Glyph.isOperator c = true) :
    pointsBefore (text ++ [c]) = 0 ∧ operatorsBefore (text ++ [c]) = operatorsBefore text + 1 := by
  simp [pointsBefore, operatorsBefore, runBack_concat, isSegmentChar, h]

theorem before_operand {c : Char} (text : List Char) (h : Glyph.isOperator c = false) :
    pointsBefore (text ++ [c]) = pointsBefore text + (if c = '.' then 1 else 0) ∧
      operatorsBefore (text ++ [c]) = 0 := by
  simp [pointsBefore, operatorsBefore, runBack_concat, isSegmentChar, h, List.count_cons]

theorem not_isOperator_point : Glyph.isOperator '.' = false := by
  decide

/-- The check goes through if every character fits what is before it. -/
theorem continuesWell_iff (text : List Char) : ∀ done : List Char,
    continuesWell (pointsBefore done) (operatorsBefore done) text = true ↔
      ∀ left c right, text = left ++ c :: right → Fits (done ++ left) c := by
  induction text with
  | nil => simp [continuesWell]
  | cons c text ih =>
    intro done
    -- The first character fits what is done, and the rest fits behind it.
    have hsplit : (∀ left d right, c :: text = left ++ d :: right → Fits (done ++ left) d) ↔
        Fits done c ∧
          ∀ left d right, text = left ++ d :: right → Fits ((done ++ [c]) ++ left) d := by
      constructor
      · intro h
        refine ⟨by simpa using h [] c text rfl, fun left d right ht => ?_⟩
        rw [List.append_assoc]
        exact h (c :: left) d right (by rw [ht]; rfl)
      · rintro ⟨hc, hrest⟩ left d right ht
        cases left with
        | nil =>
          obtain ⟨rfl, -⟩ := List.cons.inj ht
          simpa using hc
        | cons e left =>
          obtain ⟨rfl, htail⟩ := List.cons.inj ht
          simpa using hrest left d right htail
    rw [hsplit, ← ih (done ++ [c]), continuesWell]
    by_cases hop : Glyph.isOperator c = true
    · have hne : c ≠ '.' := by
        rintro rfl
        rw [not_isOperator_point] at hop
        cases hop
      obtain ⟨hp, ho⟩ := before_operator done hop
      simp [Fits, hop, hne, hp, ho]
    · rw [Bool.not_eq_true] at hop
      obtain ⟨hp, ho⟩ := before_operand done hop
      by_cases hpoint : c = '.'
      · subst hpoint
        simp only [Fits, hop, hp, ho, if_true]
        by_cases hz : pointsBefore done = 0
        · simp [hz]
        · simp [hz]
      · simp [Fits, hop, hp, ho, hpoint]

/-! ## From characters to runs -/

theorem IsSignedOperator.fits {left right : List Char} {c : Char}
    (h : IsSignedOperator (left ++ c :: right)) : left.length = 0 ∨ left.length = 1 ∧ c = '-' := by
  rcases left with - | ⟨d, - | ⟨e, left⟩⟩
  · exact .inl rfl
  · rcases h with ⟨_, h⟩ | ⟨_, h⟩
    · simp at h
    · simp at h
      exact .inr ⟨rfl, h.2.1⟩
  · rcases h with ⟨_, h⟩ | ⟨_, h⟩ <;> simp at h

theorem operatorsBefore_append {before ops : List Char}
    (hops : ∀ c ∈ ops, Glyph.isOperator c = true)
    (hbefore : ∀ c ∈ before.getLast?, Glyph.isOperator c = false) :
    operatorsBefore (before ++ ops) = ops.length := by
  rw [operatorsBefore, runBack_append hops, runBack_eq_nil hbefore, List.append_nil,
    List.length_reverse]

theorem pointsBefore_append {before operand : List Char}
    (hoperand : ∀ c ∈ operand, isSegmentChar c = true)
    (hbefore : ∀ c ∈ before.getLast?, isSegmentChar c = false) :
    pointsBefore (before ++ operand) = operand.count '.' := by
  rw [pointsBefore, runBack_append hoperand, runBack_eq_nil hbefore, List.append_nil,
    List.count_reverse]

/-- A text has one point at most if no point is behind another. -/
theorem count_point_le_one {text : List Char}
    (h : ∀ left right, text = left ++ '.' :: right → left.count '.' = 0) : text.count '.' ≤ 1 := by
  induction text using List.reverseRecOn with
  | nil => simp
  | append_singleton text c ih =>
    rw [List.count_append, List.count_singleton]
    by_cases hc : c = '.'
    · subst hc
      rw [h text [] rfl]
      simp
    · have htext := ih fun left right ht => h left (right ++ [c]) (by rw [ht]; simp)
      simpa [hc] using htext

/-- An entry is well shaped if each character of it fits what is before it. -/
theorem wellShaped_iff_fits (text : List Char) :
    WellShaped text ↔ ∀ left c right, text = left ++ c :: right → Fits left c := by
  constructor
  · intro h left c right ht
    have haround : ∀ p : Char → Bool, p c = true → ∃ before after,
        text = before ++ ((runBack p left).reverse ++ c :: right.takeWhile p) ++ after ∧
          IsRun p before ((runBack p left).reverse ++ c :: right.takeWhile p) after := by
      intro p hp
      obtain ⟨before, hleft, hrun⟩ := isRun_around p left (c :: right)
      rw [List.takeWhile_cons_of_pos hp, List.dropWhile_cons_of_pos hp] at hrun
      refine ⟨before, right.dropWhile p, ?_, hrun⟩
      rw [← List.append_assoc, ← hleft, ht, List.append_assoc, List.cons_append,
        List.takeWhile_append_dropWhile]
    constructor
    · intro hop
      obtain ⟨before, after, hsplit, hrun⟩ := haround _ hop
      have hfits := (h.operators _ _ _ hsplit hrun (by simp)).fits
      rwa [List.length_reverse] at hfits
    · rintro rfl
      obtain ⟨before, after, hsplit, hrun⟩ := haround isSegmentChar (by decide)
      have hcount := h.points _ _ _ hsplit hrun
      rw [List.count_append, List.count_reverse, List.count_cons_self] at hcount
      rw [pointsBefore]
      omega
  · intro h
    constructor
    · intro before run after ht hrun
      refine count_point_le_one fun left right hr => ?_
      have hleft : ∀ c ∈ left, isSegmentChar c = true := by
        intro c hc
        exact hrun.all c (by rw [hr]; simp [hc])
      rw [← pointsBefore_append hleft hrun.before]
      exact (h (before ++ left) '.' (right ++ after) (by rw [ht, hr]; simp)).2 rfl
    · intro before run after ht hrun hne
      -- How many operators of the run are before its second and its third.
      have hfits : ∀ left c right, run = left ++ c :: right →
          left.length = 0 ∨ left.length = 1 ∧ c = '-' := by
        intro left c right hr
        have hleft : ∀ d ∈ left, Glyph.isOperator d = true := by
          intro d hd
          exact hrun.all d (by rw [hr]; simp [hd])
        rw [← operatorsBefore_append hleft hrun.before]
        exact (h (before ++ left) c (right ++ after) (by rw [ht, hr]; simp)).1
          (hrun.all c (by rw [hr]; simp))
      rcases run with - | ⟨c, - | ⟨d, - | ⟨e, run⟩⟩⟩
      · exact absurd rfl hne
      · exact .inl ⟨c, rfl⟩
      · rcases hfits [c] d [] rfl with hl | ⟨-, rfl⟩
        · cases hl
        · exact .inr ⟨c, rfl⟩
      · rcases hfits [c, d] e run rfl with hl | ⟨hl, -⟩ <;> cases hl

/-- **The check of the editor is the shape of the entry.** -/
theorem isWellFormed_iff (b : Buffer) : b.isWellFormed = true ↔ WellShaped b.chars := by
  rw [wellShaped_iff_fits]
  exact continuesWell_iff b.chars []

end PocketCalculator.Buffer
