import PocketCalculator.Proofs.Editor.Change
import PocketCalculator.Proofs.Editor.Overlay
import PocketCalculator.Proofs.Token.Segments

/-!
# Constants and points

The keys of a constant and of the point put digits and a point in at the cursor, behind a `*` where
they begin another operand (`PutsIn`). A constant is a number of its own, so it runs into no digit
on either side (`constant_apart`). A point belongs to a number: there is a digit before it, no other
point is in the row of digits around it, and the row is read as the number that it writes
(`point_in_number`). So the next point is refused.
-/

namespace PocketCalculator.Editor

open Buffer (Formed pointsBefore pointsAfter before_operator before_operand
  before_append_operand pointsAfter_operand_append)
open Text (IsRun runBack)

/-- A text is put in between these two, and the cursor goes behind it: before it is what was before
the cursor, and perhaps a `*`, and after it what was after the cursor. Zero and what is under an
overlay give way to it. -/
structure PutsIn (s : Editor) (text before after : List Char) (t : Editor) : Prop where
  state : t = s.uncovered.around (before ++ text) after
  place : if s.overlay.isSome || s.buffer.isZero then before = [] ∧ after = []
    else ∃ left, s.buffer.chars = left ++ after ∧ s.cursor = left.length ∧
      (before = left ∨ before = left ++ ['*'])

variable {s t : Editor} {text before after left right : List Char} {constant : Constant}

theorem fresh_eq_false_iff :
    (s.overlay.isSome || s.buffer.isZero) = false ↔ s.overlay = none ∧ s.buffer.isZero = false := by
  rw [Bool.or_eq_false_iff, Option.isSome_eq_false_iff, Option.isNone_iff_eq_none]

theorem PutsIn.fill (hfresh : (s.overlay.isSome || s.buffer.isZero) = true) (hne : text ≠ []) :
    s.PutsIn text [] [] (s.uncovered.fill text) where
  state := fill_eq_around hne _
  place := by rw [if_pos hfresh]; exact ⟨rfl, rfl⟩

theorem PutsIn.around (hoverlay : s.overlay = none) (hne : left ++ right ≠ [])
    (hzero : left ++ right ≠ ['0']) (hbefore : before = left ∨ before = left ++ ['*']) :
    (s.around left right).PutsIn text before right (s.around (before ++ text) right) where
  state := by rw [uncovered_eq (s := s.around left right) hoverlay]; rfl
  place := by
    have hkeyed := (isZero_around (s := s) hne).trans (beq_eq_false_iff_ne.mpr hzero)
    have hfresh := (fresh_eq_false_iff (s := s.around left right)).mpr ⟨hoverlay, hkeyed⟩
    rw [hfresh, if_neg Bool.false_ne_true]
    exact ⟨left, chars_around hne, rfl, hbefore⟩

theorem PutsIn.chars (h : s.PutsIn text before after t) (hne : text ≠ []) :
    t.buffer.chars = before ++ text ++ after := by
  rw [h.state]
  exact chars_around (by simp [hne])

/-! ## Constants -/

theorem isNumberChar_of_mem_expanded {c : Char} (hc : c ∈ constant.expanded) :
    isNumberChar c = true :=
  Decimal.isNumeric_of_mem_text hc

theorem expanded_ne_nil (constant : Constant) : constant.expanded ≠ [] := by
  cases constant <;> decide

theorem insertConstant_around (hne : left ++ right ≠ []) (hzero : left ++ right ≠ ['0'])
    (constant : Constant) :
    (s.around left right).insertConstant constant =
      if (s.around left right).beforeDigit then s.around left right
      else if (s.around left right).afterDigit || (s.around left right).afterClosedOperand then
        s.around (left ++ ['*'] ++ constant.expanded) right
      else if (s.around left right).buffer.segmentHasPoint left.length then s.around left right
      else s.around (left ++ constant.expanded) right := by
  rw [insertConstant, isZero_around hne, beq_eq_false_iff_ne.mpr hzero, if_neg Bool.false_ne_true,
    insert_around hne, insert_around hne, List.append_assoc]
  rfl

/-- What is refused has a digit or a point behind the cursor, or a point in the operand around it.
What is put in is apart from the digits on both sides. -/
theorem insertConstant_cases (hne : left ++ right ≠ []) (hzero : left ++ right ≠ ['0'])
    (constant : Constant) :
    ((s.around left right).insertConstant constant = s.around left right ∧
        ((s.around left right).beforeDigit = true ∨
          (s.around left right).buffer.segmentHasPoint left.length = true)) ∨
      ∃ before, (before = left ∨ before = left ++ ['*']) ∧
        (s.around left right).insertConstant constant =
          s.around (before ++ constant.expanded) right ∧
        IsRun isNumberChar before constant.expanded right := by
  have hall : ∀ c ∈ constant.expanded, isNumberChar c = true :=
    fun c => isNumberChar_of_mem_expanded
  rw [insertConstant_around hne hzero]
  split
  · next hdigit => exact .inl ⟨rfl, .inl hdigit⟩
  · next hdigit =>
    rw [beforeDigit_around hne, Bool.not_eq_true, Option.any_eq_false] at hdigit
    split
    · refine .inr ⟨left ++ ['*'], .inr rfl, rfl, hall, ?_, hdigit⟩
      rw [List.getLast?_concat]
      rintro _ ⟨⟩
      rfl
    · next hoperand =>
      split
      · next hpoint => exact .inl ⟨rfl, .inr hpoint⟩
      · refine .inr ⟨left, .inl rfl, rfl, hall, ?_, hdigit⟩
        rw [Bool.not_eq_true, Bool.or_eq_false_iff, afterDigit_around hne, Option.any_eq_false]
          at hoperand
        exact hoperand.1

/-- The text of a constant is an operand with one point at most. -/
theorem operand_expanded (constant : Constant) :
    (∀ c ∈ constant.expanded, Glyph.isOperator c = false) ∧ constant.expanded.count '.' ≤ 1 :=
  ⟨fun _ hc => isOperator_of_isNumberChar (isNumberChar_of_mem_expanded hc),
    by cases constant <;> decide⟩

theorem isWellFormed_fill_constant (s : Editor) (constant : Constant) :
    (s.fill constant.expanded).buffer.isWellFormed = true := by
  obtain ⟨hoperand, hpoints⟩ := operand_expanded constant
  exact isWellFormed_fill (Buffer.continuesWell_operand hoperand (by omega))

/-- Where the operand around the cursor has no point, a constant keeps the shape of the entry. -/
theorem isWellFormed_insertConstant (h : Formed s.buffer.chars)
    (hnone : s.buffer.segmentHasPoint s.cursor = false) (constant : Constant) :
    (s.insertConstant constant).buffer.isWellFormed = true := by
  obtain ⟨hoperand, hpoints⟩ := operand_expanded constant
  unfold insertConstant
  dsimp only
  split
  · exact isWellFormed_fill_constant s constant
  · split
    · exact h
    · split
      · next hfactor =>
        exact isWellFormed_insertPointedFactor hnone h (expanded_ne_nil constant) hoperand
          (operatorsBefore_of_operand hfactor) hpoints
      · split
        · exact h
        · exact isWellFormed_insertPointed hnone h (expanded_ne_nil constant) hoperand hpoints

theorem perform_constant (s : Editor) (constant : Constant) :
    s.perform (.digit constant.symbol) = s.insertConstant constant := by
  unfold perform
  simp only [Constant.ofSymbol?_eq_some_iff.mpr rfl]

/-- A constant takes the place of zero and of what is under an overlay. -/
theorem apply_constant_fresh (haccepts : s.layout.accepts s.mode (.digit constant.symbol) = true)
    (hfresh : (s.overlay.isSome || s.buffer.isZero) = true) :
    s.apply (.digit constant.symbol) = s.uncovered.fill constant.expanded := by
  have hperform : s.uncovered.perform (.digit constant.symbol) =
      s.uncovered.fill constant.expanded := by
    rw [perform_constant, insertConstant, isZero_uncovered, if_pos hfresh]
  have hformed := isWellFormed_fill_constant s.uncovered constant
  rw [← hperform] at hformed ⊢
  exact apply_of_isWellFormed haccepts hformed

/-- The last check of the editor refuses a constant only where the operand around the cursor has a
point. -/
theorem apply_constant_cases (hoverlay : s.overlay = none)
    (haccepts : s.layout.accepts s.mode (.digit constant.symbol) = true) :
    (s.apply (.digit constant.symbol) = s ∧ s.buffer.segmentHasPoint s.cursor = true) ∨
      s.apply (.digit constant.symbol) = s.insertConstant constant := by
  have hedit : s.edit (.digit constant.symbol) = s.insertConstant constant := by
    rw [edit_eq, uncovered_eq hoverlay, perform_constant]
  cases hpoint : s.buffer.segmentHasPoint s.cursor with
  | true =>
    rw [← hedit]
    exact (apply_eq_or s _).imp_left fun h => ⟨h, rfl⟩
  | false =>
    refine .inr ?_
    rw [← hedit, edit_eq]
    cases hformed : s.buffer.isWellFormed with
    | false => exact apply_of_not_isWellFormed haccepts hformed
    | true =>
      refine apply_of_isWellFormed haccepts ?_
      rw [← edit_eq, hedit]
      exact isWellFormed_insertConstant hformed hpoint constant

/-- **A constant is a number of its own.** If the key of a constant changes nothing, an entry other
than zero is shown, with a digit or a point behind the cursor or with a point in the operand around
it. Otherwise it puts the text of the constant in, and this text is the whole row of digits and points
that it is in. A point in the operand does not always keep it out: behind a digit it goes in with a
`*`, so that π makes `2.5*3.141592653589793` of `2.5`. -/
theorem constant_apart (hcursor : s.CursorInside)
    (haccepts : s.layout.accepts s.mode (.digit constant.symbol) = true) :
    let t := s.apply (.digit constant.symbol)
    (t = s ∧ s.overlay = none ∧ s.buffer.isZero = false ∧
        (s.beforeDigit = true ∨ s.buffer.segmentHasPoint s.cursor = true)) ∨
      ∃ before after, s.PutsIn constant.expanded before after t ∧
        IsRun isNumberChar before constant.expanded after := by
  intro t
  cases hfresh : (s.overlay.isSome || s.buffer.isZero) with
  | true =>
    refine .inr ⟨[], [], ?_, fun c => isNumberChar_of_mem_expanded, by simp, by simp⟩
    dsimp only [t]
    rw [apply_constant_fresh haccepts hfresh]
    exact PutsIn.fill hfresh (expanded_ne_nil constant)
  | false =>
    obtain ⟨hoverlay, hzero⟩ := fresh_eq_false_iff.mp hfresh
    rcases apply_constant_cases hoverlay haccepts with ⟨hrefused, hpoint⟩ | happly
    · exact .inl ⟨hrefused, hoverlay, hzero, .inr hpoint⟩
    · obtain ⟨r, left, right, hne, hentry, hnothing, rfl⟩ :=
        exists_around_of_not_isZero hcursor hzero hoverlay
      rcases insertConstant_cases hne hentry constant with
        ⟨hsame, hreason⟩ | ⟨before, hbefore, hput, hrun⟩
      · exact .inl ⟨happly.trans hsame, hoverlay, hzero, hreason⟩
      · refine .inr ⟨before, right, ?_, hrun⟩
        dsimp only [t]
        rw [happly, hput]
        exact PutsIn.around hnothing hne hentry hbefore

/-- Behind a bracket the constant is a factor. -/
theorem constant_behind_bracket :
    let s : Editor := { ofText "(3)+4".toList with cursor := 3, mode := .scientific }
    s.CursorInside ∧ s.layout.accepts s.mode (.digit 'π') = true ∧
      let t := s.apply (.digit 'π')
      t.buffer.chars = "(3)*3.141592653589793+4".toList ∧ t.cursor = 21 ∧
        ((t = s ∧ s.overlay = none ∧ s.buffer.isZero = false ∧
            (s.beforeDigit = true ∨ s.buffer.segmentHasPoint s.cursor = true)) ∨
          ∃ before after, s.PutsIn Constant.pi.expanded before after t ∧
            IsRun isNumberChar before Constant.pi.expanded after) := by
  intro s
  have hcursor : s.CursorInside := by
    unfold CursorInside
    decide
  have haccepts : s.layout.accepts s.mode (.digit Constant.pi.symbol) = true := by decide
  exact ⟨hcursor, haccepts, by decide, by decide, constant_apart hcursor haccepts⟩

/-! ## Points -/

/-- Between these texts stands a number with a point in it, with these digits before and after the
point. -/
structure PointedNumber (front whole fraction rest : List Char) : Prop where
  run : IsRun isNumberChar front (whole ++ '.' :: fraction) rest
  begun : whole ≠ []
  digits : ∀ c ∈ whole ++ fraction, c.isDigit = true

theorem isDigit_of_isNumberChar {row : List Char} (hrow : ∀ c ∈ row, isNumberChar c = true)
    (hpoint : row.count '.' = 0) : ∀ c ∈ row, c.isDigit = true := by
  intro c hc
  have hnumber := hrow c hc
  rw [isNumberChar, Bool.or_eq_true, beq_iff_eq] at hnumber
  rcases hnumber with hdigit | rfl
  · exact hdigit
  · exact absurd hc (List.count_eq_zero.mp hpoint)

/-- Behind a digit, in an operand without a point, there is room for one: the digits on both sides
of it are all of the row. -/
theorem exists_pointedNumber {lead : List Char} (hdigit : ∃ c ∈ lead.getLast?, c.isDigit = true)
    (hbefore : pointsBefore lead = 0) (hafter : pointsAfter right = 0) :
    ∃ front whole fraction rest, lead = front ++ whole ∧ right = fraction ++ rest ∧
      PointedNumber front whole fraction rest := by
  obtain ⟨front, hlead, hrun⟩ := Text.isRun_around isNumberChar lead right
  have hright := List.takeWhile_append_dropWhile (p := isNumberChar) (l := right)
  obtain ⟨c, hlast, hc⟩ := hdigit
  have hnumber : isNumberChar c = true := by rw [isNumberChar, hc, Bool.true_or]
  have hbegun : (runBack isNumberChar lead).reverse ≠ [] := by
    intro hnil
    rw [hnil, List.append_nil] at hlead
    rw [hlead] at hlast
    rw [hrun.before c hlast] at hnumber
    cases hnumber
  generalize (runBack isNumberChar lead).reverse = whole at *
  generalize right.takeWhile isNumberChar = fraction at *
  generalize right.dropWhile isNumberChar = rest at *
  subst hlead hright
  obtain ⟨hwhole, hfraction⟩ := List.forall_mem_append.mp hrun.all
  have hoperator {row : List Char} (hrow : ∀ d ∈ row, isNumberChar d = true) :
      ∀ d ∈ row, Glyph.isOperator d = false := fun d hd => isOperator_of_isNumberChar (hrow d hd)
  rw [(before_append_operand front (hoperator hwhole) hbegun).1] at hbefore
  rw [pointsAfter_operand_append (hoperator hfraction)] at hafter
  refine ⟨front, whole, fraction, rest, rfl, rfl, ⟨?_, hrun.before, hrun.after⟩, hbegun, ?_⟩
  · exact List.forall_mem_append.mpr ⟨hwhole, List.forall_mem_cons.mpr ⟨rfl, hfraction⟩⟩
  · exact List.forall_mem_append.mpr ⟨isDigit_of_isNumberChar hwhole (by omega),
      isDigit_of_isNumberChar hfraction (by omega)⟩

/-- The lexer reads such a number as one piece, with the value that its digits write. -/
theorem PointedNumber.scan {front whole fraction rest : List Char}
    (h : PointedNumber front whole fraction rest) :
    Token.scan (front ++ (whole ++ '.' :: fraction) ++ rest) =
      Token.scan front ++
        .ok (.number (Token.rowValue (whole ++ '.' :: fraction)).toFloat) :: Token.scan rest := by
  obtain ⟨hwhole, hfraction⟩ := List.forall_mem_append.mp h.digits
  have hall : ∀ c ∈ whole ++ '.' :: fraction, Token.isNumeric c = true := h.run.all
  have hone : (whole ++ '.' :: fraction).count '.' ≤ 1 := by
    rw [Token.count_point hwhole, List.count_eq_zero.mpr (Token.point_notMem hfraction)]
  have hdigit : (whole ++ '.' :: fraction).any Char.isDigit = true := by
    rw [List.any_append, Token.any_isDigit hwhole, List.isEmpty_eq_false_iff.mpr h.begun]
    rfl
  rw [Token.scan_run h.run (by simp), Token.ofNumber_eq hall, Token.classify,
    if_pos (List.all_eq_true.mpr hall), if_pos ⟨hdigit, hone⟩]

theorem isNumberChar_canonical (c : Char) : isNumberChar (Glyph.canonical c) = isNumberChar c := by
  unfold Glyph.canonical
  split <;> rfl

/-- In ASCII spelling it is the same number. -/
theorem PointedNumber.canonical {front whole fraction rest : List Char}
    (h : PointedNumber front whole fraction rest) :
    PointedNumber (Glyph.canonicalText front) whole fraction (Glyph.canonicalText rest) := by
  refine ⟨⟨h.run.all, ?_, ?_⟩, h.begun, h.digits⟩
  · intro c hc
    rw [Glyph.canonicalText, List.getLast?_map, Option.mem_map] at hc
    obtain ⟨d, hd, rfl⟩ := hc
    rw [isNumberChar_canonical, h.run.before d hd]
  · intro c hc
    rw [Glyph.canonicalText, List.head?_map, Option.mem_map] at hc
    obtain ⟨d, hd, rfl⟩ := hc
    rw [isNumberChar_canonical, h.run.after d hd]

theorem PointedNumber.canonicalText_row {front whole fraction rest : List Char}
    (h : PointedNumber front whole fraction rest) :
    Glyph.canonicalText (whole ++ '.' :: fraction) = whole ++ '.' :: fraction := by
  refine Glyph.canonicalText_of_forall fun c hc => ?_
  have hnumber := h.run.all c hc
  rw [isNumberChar, Bool.or_eq_true, beq_iff_eq] at hnumber
  rcases hnumber with hdigit | rfl
  · exact Glyph.canonical_of_isDigit hdigit
  · rfl

/-- A point is put in, perhaps with a zero before it, and it belongs to a number. -/
structure PutsPoint (s : Editor) (front whole fraction rest : List Char) (t : Editor) : Prop where
  put : ∃ before text, (text = ['.'] ∨ text = ['0', '.']) ∧
    before ++ text = front ++ whole ++ ['.'] ∧ s.PutsIn text before (fraction ++ rest) t
  number : PointedNumber front whole fraction rest

theorem insertPoint_around (hne : left ++ right ≠ []) (hzero : left ++ right ≠ ['0'])
    (hpoint : (s.around left right).buffer.segmentHasPoint left.length = false) :
    (s.around left right).insertPoint =
      if (s.around left right).afterClosedOperand then s.around (left ++ ['*'] ++ ['0', '.']) right
      else if (s.around left right).afterDigit then s.around (left ++ ['.']) right
      else s.around (left ++ ['0', '.']) right := by
  rw [insertPoint, isZero_around hne, beq_eq_false_iff_ne.mpr hzero, if_neg Bool.false_ne_true,
    insert_around hne, insert_around hne, insert_around hne, List.append_assoc]
  exact if_neg (Bool.eq_false_iff.mp hpoint)

/-- A point goes in behind a digit, a zero of its own if there is no other, and the operand there
has no point yet. -/
theorem insertPoint_cases (hne : left ++ right ≠ []) (hzero : left ++ right ≠ ['0'])
    (hpoint : (s.around left right).buffer.segmentHasPoint left.length = false) :
    ∃ before text lead, (before = left ∨ before = left ++ ['*']) ∧
      (text = ['.'] ∨ text = ['0', '.']) ∧ before ++ text = lead ++ ['.'] ∧
      (s.around left right).insertPoint = s.around (before ++ text) right ∧
      (∃ c ∈ lead.getLast?, c.isDigit = true) ∧ pointsBefore lead = 0 ∧ pointsAfter right = 0 := by
  have hdigit (text : List Char) : ∃ c ∈ (text ++ ['0']).getLast?, c.isDigit = true :=
    ⟨'0', List.getLast?_concat, rfl⟩
  have hpoints (text : List Char) : pointsBefore (text ++ ['0']) = pointsBefore text :=
    (before_operand text rfl).1
  rw [insertPoint_around hne hzero hpoint]
  rw [segmentHasPoint_around hne, decide_eq_false_iff_not, Nat.not_lt, Nat.le_zero,
    Nat.add_eq_zero_iff] at hpoint
  obtain ⟨hbefore, hafter⟩ := hpoint
  split
  · refine ⟨left ++ ['*'], ['0', '.'], left ++ ['*'] ++ ['0'], .inr rfl, .inr rfl, by simp, rfl,
      hdigit _, ?_, hafter⟩
    rw [hpoints]
    exact (before_operator left rfl).1
  · split
    · next hlast =>
      refine ⟨left, ['.'], left, .inl rfl, .inl rfl, rfl, rfl, ?_, hbefore, hafter⟩
      rw [afterDigit_around hne, Option.any_eq_true] at hlast
      obtain ⟨c, hlast, hc⟩ := hlast
      obtain ⟨front, rfl⟩ := List.getLast?_eq_some_iff.mp hlast
      have hone : ∀ d ∈ [c], isNumberChar d = true := by simpa using hc
      have hoperand : ∀ d ∈ [c], Glyph.isOperator d = false :=
        fun d hd => isOperator_of_isNumberChar (hone d hd)
      have hcount := (before_append_operand front hoperand (List.cons_ne_nil c [])).1
      exact ⟨c, hlast, isDigit_of_isNumberChar hone (by omega) c List.mem_cons_self⟩
    · refine ⟨left, ['0', '.'], left ++ ['0'], .inl rfl, .inr rfl, by simp, rfl, hdigit _, ?_,
        hafter⟩
      rw [hpoints, hbefore]

theorem apply_point (s : Editor) : s.apply .point = s.uncovered.insertPoint :=
  apply_of_checks rfl rfl

theorem apply_point_eq_self (hoverlay : s.overlay = none)
    (hpoint : s.buffer.segmentHasPoint s.cursor = true) : s.apply .point = s := by
  rw [apply_point, uncovered_eq hoverlay, insertPoint, if_pos hpoint]

/-- Behind a point the next one is refused. -/
theorem apply_point_behind_point (hoverlay : s.overlay = none) (left right : List Char) :
    (s.around (left ++ ['.']) right).apply .point = s.around (left ++ ['.']) right := by
  refine apply_point_eq_self hoverlay ?_
  refine (segmentHasPoint_around (by simp)).trans (decide_eq_true ?_)
  rw [(before_operand left rfl).1, if_pos rfl]
  omega

theorem segmentHasPoint_of_isZero (hcursor : s.CursorInside) (hzero : s.buffer.isZero = true) :
    s.buffer.segmentHasPoint s.cursor = false := by
  obtain ⟨t, left, right, hne, rfl⟩ := exists_around hcursor
  rw [isZero_around hne, beq_iff_eq, List.append_eq_singleton_iff] at hzero
  rcases hzero with ⟨rfl, rfl⟩ | ⟨rfl, rfl⟩ <;> exact (segmentHasPoint_around hne).trans (by decide)

/-- A point takes the place of zero and of what is under an overlay with a zero before it. -/
theorem apply_point_fresh (hcursor : s.CursorInside)
    (hfresh : (s.overlay.isSome || s.buffer.isZero) = true) :
    s.apply .point = s.uncovered.fill ['0', '.'] := by
  have hzero := (isZero_uncovered s).trans hfresh
  have hnone := segmentHasPoint_of_isZero hcursor.uncovered hzero
  rw [apply_point, insertPoint, hnone, if_neg Bool.false_ne_true, if_pos hzero]

/-- Where the key puts a point in, it belongs to a number. -/
theorem apply_point_cases (hcursor : s.CursorInside) :
    (s.apply .point = s ∧ s.overlay = none ∧ s.buffer.segmentHasPoint s.cursor = true) ∨
      ∃ front whole fraction rest, s.PutsPoint front whole fraction rest (s.apply .point) := by
  cases hfresh : (s.overlay.isSome || s.buffer.isZero) with
  | true =>
    have hnumber : PointedNumber [] ['0'] [] [] :=
      ⟨⟨by simp [isNumberChar], by simp, by simp⟩, List.cons_ne_nil _ _, by simp⟩
    refine .inr ⟨[], ['0'], [], [], ⟨[], ['0', '.'], .inr rfl, rfl, ?_⟩, hnumber⟩
    rw [apply_point_fresh hcursor hfresh]
    exact PutsIn.fill hfresh (List.cons_ne_nil _ _)
  | false =>
    obtain ⟨hnone, hzero⟩ := fresh_eq_false_iff.mp hfresh
    obtain ⟨r, left, right, hne, hentry, hoverlay, rfl⟩ :=
      exists_around_of_not_isZero hcursor hzero hnone
    cases hpoint : (r.around left right).buffer.segmentHasPoint left.length with
    | true => exact .inl ⟨apply_point_eq_self hoverlay hpoint, hoverlay, hpoint⟩
    | false =>
      obtain ⟨before, text, lead, hbefore, htext, hlead, hput, hdigit, hpoints, hafter⟩ :=
        insertPoint_cases hne hentry hpoint
      obtain ⟨front, whole, fraction, rest, rfl, rfl, hnumber⟩ :=
        exists_pointedNumber hdigit hpoints hafter
      refine .inr ⟨front, whole, fraction, rest, ⟨before, text, htext, hlead, ?_⟩, hnumber⟩
      rw [apply_point, uncovered_eq (s := r.around left (fraction ++ rest)) hoverlay, hput]
      exact PutsIn.around hoverlay hne hentry hbefore

section PutsPoint

variable {front whole fraction rest : List Char} (h : s.PutsPoint front whole fraction rest t)

include h

theorem PutsPoint.chars : t.buffer.chars = front ++ (whole ++ '.' :: fraction) ++ rest := by
  obtain ⟨before, text, htext, hpoint, hput⟩ := h.put
  have hne : text ≠ [] := by rcases htext with rfl | rfl <;> exact List.cons_ne_nil _ _
  rw [hput.chars hne, hpoint]
  simp

theorem PutsPoint.apply_point : t.apply .point = t := by
  obtain ⟨before, text, -, hpoint, hput⟩ := h.put
  rw [hput.state, hpoint]
  exact apply_point_behind_point (overlay_uncovered s) _ _

end PutsPoint

/-- **A point belongs to a number.** The point key changes nothing where the operand around the
cursor has a point. Anywhere else there is a digit before the point that it puts in, no other point
is in the row of digits around it, and the lexer reads the row as the number that it writes, also
where the rest of the entry is not in ASCII spelling yet. So pressing the key again changes nothing.
-/
theorem point_in_number (hcursor : s.CursorInside) :
    let t := s.apply .point
    t.apply .point = t ∧
      ((t = s ∧ s.overlay = none ∧ s.buffer.segmentHasPoint s.cursor = true) ∨
        ∃ front whole fraction rest, s.PutsPoint front whole fraction rest t ∧
          let number : Except EvalError Token :=
            .ok (.number (Token.rowValue (whole ++ '.' :: fraction)).toFloat)
          Token.scan t.buffer.chars = Token.scan front ++ number :: Token.scan rest ∧
            Token.scan (Glyph.canonicalText t.buffer.chars) =
              Token.scan (Glyph.canonicalText front) ++
                number :: Token.scan (Glyph.canonicalText rest)) := by
  intro t
  rcases apply_point_cases hcursor with ⟨hrefused, hreason⟩ | ⟨front, whole, fraction, rest, hput⟩
  · exact ⟨congrArg (·.apply .point) hrefused, .inl ⟨hrefused, hreason⟩⟩
  · refine ⟨hput.apply_point, .inr ⟨front, whole, fraction, rest, hput, ?_, ?_⟩⟩
    · rw [hput.chars]
      exact hput.number.scan
    · rw [hput.chars, Glyph.canonicalText, List.map_append, List.map_append, ← Glyph.canonicalText,
        ← Glyph.canonicalText, hput.number.canonicalText_row]
      exact hput.number.canonical.scan

/-- Between two digits of a number without a point, behind one that has a point. -/
theorem point_between_digits :
    let s : Editor := { ofText "1.5+34÷2".toList with cursor := 5 }
    s.CursorInside ∧
      let t := s.apply .point
      t.buffer.chars = "1.5+3.4÷2".toList ∧ t.cursor = 6 ∧ t.apply .point = t ∧
        ((t = s ∧ s.overlay = none ∧ s.buffer.segmentHasPoint s.cursor = true) ∨
          ∃ front whole fraction rest, s.PutsPoint front whole fraction rest t ∧
            let number : Except EvalError Token :=
              .ok (.number (Token.rowValue (whole ++ '.' :: fraction)).toFloat)
            Token.scan t.buffer.chars = Token.scan front ++ number :: Token.scan rest ∧
              Token.scan (Glyph.canonicalText t.buffer.chars) =
                Token.scan (Glyph.canonicalText front) ++
                  number :: Token.scan (Glyph.canonicalText rest)) := by
  intro s
  have hcursor : s.CursorInside := by
    unfold CursorInside
    decide
  exact ⟨hcursor, by decide, by decide, point_in_number hcursor⟩

end PocketCalculator.Editor
