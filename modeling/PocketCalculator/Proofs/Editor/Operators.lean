import PocketCalculator.Proofs.Editor.Around
import PocketCalculator.Proofs.Editor.Overlay

/-!
# Operators one after the other

The operator key puts its operator in the place of the whole run of operators around the cursor, and
the texts on both sides do not go on with it (`insertOperator_around`). So the next operator takes
the place of that one and of no more (`insertOperator_insertOperator`), and of operators keyed in
one after the other the last is left (`operators_last`).
-/

namespace PocketCalculator.Editor

open Text (IsRun)

variable {s : Editor} {before left right after : List Char} {c d : Char}

/-! ## One operator -/

theorem exists_operators_around (h : s.CursorInside) :
    ∃ (t : Editor) (before left right after : List Char),
      before ++ left ++ (right ++ after) ≠ [] ∧
      IsRun Glyph.isOperator before (left ++ right) after ∧
      s = t.around (before ++ left) (right ++ after) := by
  obtain ⟨before, left, right, after, hleft, hright, hrun⟩ :=
    s.buffer.exists_run_around Glyph.isOperator s.cursor
  have hself := around_take_drop h
  rw [hleft, hright] at hself
  refine ⟨s, before, left, right, after, ?_, hrun, hself.symm⟩
  rw [← hleft, ← hright, List.take_append_drop]
  exact s.buffer.ne_nil

/-- **The operator takes the place of the run around the cursor.** -/
theorem insertOperator_around (hne : before ++ left ++ (right ++ after) ≠ [])
    (hrun : IsRun Glyph.isOperator before (left ++ right) after)
    (hc : Glyph.isOperator (Glyph.canonical c) = true) :
    (s.around (before ++ left) (right ++ after)).insertOperator c =
      s.around (before ++ [Glyph.canonical c]) after := by
  have hchars := chars_around (s := s) hne
  have hleft : (s.around (before ++ left) (right ++ after)).buffer.chars.take
      (before ++ left).length = before ++ left := by
    rw [hchars, List.take_left]
  have hright : (s.around (before ++ left) (right ++ after)).buffer.chars.drop
      (before ++ left).length = right ++ after := by
    rw [hchars, List.drop_left]
  obtain ⟨hstart, hstop, hparts⟩ := Buffer.run_around hleft hright hrun
  have hsplice := Buffer.splice_middle hparts [Glyph.canonical c]
  rw [if_neg (by simp)] at hsplice
  rw [insertOperator, if_pos hc, Buffer.operatorsStart, Buffer.operatorsStop]
  dsimp only [around] at hstart hstop hsplice ⊢
  rw [hstart, hstop, hsplice, List.length_append]

/-- The next operator takes the place of that one. -/
theorem insertOperator_insertOperator (h : s.CursorInside)
    (hc : Glyph.isOperator (Glyph.canonical c) = true)
    (hd : Glyph.isOperator (Glyph.canonical d) = true) :
    (s.insertOperator c).insertOperator d = s.insertOperator d := by
  obtain ⟨t, before, left, right, after, hne, hrun, rfl⟩ := exists_operators_around h
  have hone : IsRun Glyph.isOperator before ([Glyph.canonical c] ++ []) after :=
    ⟨by simpa using hc, hrun.before, hrun.after⟩
  have hagain := insertOperator_around (s := t) (by simp) hone hd
  rw [insertOperator_around hne hrun hc, insertOperator_around hne hrun hd]
  exact hagain

/-! ## A row of operators -/

theorem apply_operator (s : Editor) (c : Char) :
    s.apply (.operator c) = s.uncovered.insertOperator c :=
  apply_of_checks rfl rfl

theorem apply_operator_apply (h : s.CursorInside)
    (hc : Glyph.isOperator (Glyph.canonical c) = true)
    (hd : Glyph.isOperator (Glyph.canonical d) = true) :
    (s.apply (.operator c)).apply (.operator d) = s.apply (.operator d) := by
  have hoverlay : (s.uncovered.insertOperator c).overlay = none :=
    overlay_perform (overlay_uncovered s) (.operator c)
  rw [apply_operator s, apply_operator, apply_operator, uncovered_eq hoverlay]
  exact insertOperator_insertOperator h.uncovered hc hd

theorem run_operators {glyphs : List Char} (h : s.CursorInside) (hne : glyphs ≠ [])
    (hglyphs : ∀ c ∈ glyphs, Glyph.isOperator (Glyph.canonical c) = true) :
    s.run (glyphs.map fun c => .event (.operator c)) = s.apply (.operator (glyphs.getLast hne)) := by
  induction glyphs generalizing s with
  | nil => exact absurd rfl hne
  | cons c glyphs ih =>
    cases glyphs with
    | nil => rfl
    | cons d glyphs =>
      obtain ⟨hc, hrest⟩ := List.forall_mem_cons.mp hglyphs
      have hlast := hrest _ (List.getLast_mem (List.cons_ne_nil d glyphs))
      calc s.run ((c :: d :: glyphs).map fun c => .event (.operator c))
          = (s.apply (.operator c)).run ((d :: glyphs).map fun c => .event (.operator c)) := rfl
        _ = (s.apply (.operator c)).apply (.operator ((d :: glyphs).getLast _)) :=
            ih (cursorInside_apply h _) (List.cons_ne_nil d glyphs) hrest
        _ = s.apply (.operator ((d :: glyphs).getLast _)) := apply_operator_apply h hc hlast
        _ = s.apply (.operator ((c :: d :: glyphs).getLast hne)) := by
            rw [List.getLast_cons (List.cons_ne_nil d glyphs)]

/-- **The last operator wins.** Operators keyed in one after the other lead where the last of them
leads. In an entry that nothing is laid over, that is to this operator in the place of the run of
operators around the cursor, with the cursor behind it and no operator next to it. -/
theorem operators_last {glyphs : List Char} (hcursor : s.CursorInside) (hne : glyphs ≠ [])
    (hglyphs : ∀ c ∈ glyphs, Glyph.isOperator (Glyph.canonical c) = true) :
    let last := glyphs.getLast hne
    s.run (glyphs.map fun c => .event (.operator c)) = s.apply (.operator last) ∧
      (s.overlay = none → ∃ before left right after,
        s.buffer.chars = before ++ left ++ (right ++ after) ∧
        s.cursor = (before ++ left).length ∧
        IsRun Glyph.isOperator before (left ++ right) after ∧
        s.apply (.operator last) = s.around (before ++ [Glyph.canonical last]) after) := by
  intro last
  refine ⟨run_operators hcursor hne hglyphs, fun hoverlay => ?_⟩
  obtain ⟨t, before, left, right, after, hnonempty, hrun, rfl⟩ := exists_operators_around hcursor
  refine ⟨before, left, right, after, chars_around hnonempty, rfl, hrun, ?_⟩
  rw [apply_operator, uncovered_eq hoverlay]
  exact insertOperator_around hnonempty hrun (hglyphs last (List.getLast_mem hne))

/-- Three operators that have piled up give way to the last of two others. -/
theorem piled_operators_replaced :
    let s : Editor := { ofText "3+*-4".toList with cursor := 2 }
    let glyphs := ['÷', '−']
    s.CursorInside ∧ glyphs ≠ [] ∧
      (∀ c ∈ glyphs, Glyph.isOperator (Glyph.canonical c) = true) ∧ s.overlay = none ∧
      s.buffer.isWellFormed = false ∧
      s.run (glyphs.map fun c => .event (.operator c)) = s.apply (.operator '−') ∧
      (s.apply (.operator '−')).buffer.chars = "3-4".toList ∧
      (s.apply (.operator '−')).cursor = 2 ∧
      ∃ before left right after, s.buffer.chars = before ++ left ++ (right ++ after) ∧
        s.cursor = (before ++ left).length ∧
        IsRun Glyph.isOperator before (left ++ right) after ∧
        s.apply (.operator '−') = s.around (before ++ ['-']) after := by
  intro s glyphs
  have hcursor : s.CursorInside := by
    unfold CursorInside
    decide
  have hne : glyphs ≠ [] := List.cons_ne_nil _ _
  have hglyphs : ∀ c ∈ glyphs, Glyph.isOperator (Glyph.canonical c) = true :=
    List.all_eq_true.mp rfl
  obtain ⟨hlast, hplace⟩ := operators_last hcursor hne hglyphs
  exact ⟨hcursor, hne, hglyphs, rfl, by decide, hlast, by decide, by decide, hplace rfl⟩

end PocketCalculator.Editor
