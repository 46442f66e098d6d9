import Mathlib.Data.List.Basic
import PocketCalculator.Proofs.Buffer.Positions
import PocketCalculator.Proofs.Buffer.Shape

/-!
# Segments and runs by their positions

Every position of an entry has an operand and a run of operators around it, either of which may be empty.
Both are all that characters of one kind have there (`isRun_runAround`), and as ranges of positions they
are the greatest that hold no others (`isMaximal_iff`). An entry is well formed if what is around every
position is (`isWellFormed_iff_positions`).
-/

namespace PocketCalculator

namespace Buffer

open Text (IsRun)

variable {b : Buffer} {p : Char → Bool} {pos start stop : Nat}

/-! ## The run around a position -/

/-- All that characters with `p` have around a position. -/
def runAround (b : Buffer) (p : Char → Bool) (pos : Nat) : List Char :=
  (b.runBefore p pos).reverse ++ b.runAfter p pos

theorem isRun_runAround (b : Buffer) (p : Char → Bool) (pos : Nat) :
    ∃ before after, b.chars = before ++ b.runAround p pos ++ after ∧
      IsRun p before (b.runAround p pos) after ∧ b.runStart p pos = before.length ∧
      b.runStop p pos = before.length + (b.runAround p pos).length := by
  obtain ⟨before, left, right, after, hleft, hright, hrun⟩ := b.exists_run_around p pos
  obtain ⟨hbefore, hafter⟩ := run_parts hleft hright hrun
  obtain ⟨hstart, hstop, hsplit⟩ := run_around hleft hright hrun
  have haround : b.runAround p pos = left ++ right := by
    rw [runAround, hbefore, hafter, List.reverse_reverse]
  rw [haround]
  exact ⟨before, after, hsplit, hrun, hstart, hstop⟩

/-- A run is what is around the position where it starts. -/
theorem runAround_length {before run after : List Char} (hsplit : b.chars = before ++ run ++ after)
    (hrun : IsRun p before run after) : b.runAround p before.length = run := by
  have hleft : b.chars.take before.length = before ++ [] := by
    rw [hsplit, List.append_assoc, List.take_left, List.append_nil]
  have hright : b.chars.drop before.length = run ++ after := by
    rw [hsplit, List.append_assoc, List.drop_left]
  obtain ⟨hbefore, hafter⟩ := run_parts hleft hright hrun
  simp [runAround, hbefore, hafter]

/-- What holds of every run holds around every position, and the other way round. -/
theorem forall_runs_iff {P : List Char → Prop} :
    (∀ before run after, b.chars = before ++ run ++ after → IsRun p before run after → P run) ↔
      ∀ pos ≤ b.length, P (b.runAround p pos) := by
  constructor
  · intro h pos _
    obtain ⟨before, after, hsplit, hrun, -, -⟩ := b.isRun_runAround p pos
    exact h before _ after hsplit hrun
  · intro h before run after hsplit hrun
    have hpos : before.length ≤ b.length := by simp [length, hsplit]
    have hat := h before.length hpos
    rwa [runAround_length hsplit hrun] at hat

/-- The decimal points around a position are those of the operand there. -/
theorem count_runAround (b : Buffer) (pos : Nat) :
    (b.runAround isSegmentChar pos).count '.' = b.segmentPoints pos := by
  rw [runAround, List.count_append, List.count_reverse]
  rfl

/-! ## Every position -/

/-- A run of operators that an entry may have: none, one, or one and a minus behind it. -/
def IsOperatorRun (run : List Char) : Prop :=
  run = [] ∨ ∃ c, Glyph.isOperator c = true ∧ (run = [c] ∨ run = [c, '-'])

theorem isOperatorRun_iff {run : List Char} (hall : ∀ c ∈ run, Glyph.isOperator c = true) :
    IsOperatorRun run ↔ (run ≠ [] → IsSignedOperator run) := by
  constructor
  · rintro (rfl | ⟨c, -, hrun⟩) hne
    · exact absurd rfl hne
    · exact hrun.imp (fun h => ⟨c, h⟩) fun h => ⟨c, h⟩
  · intro h
    by_cases hrun : run = []
    · exact .inl hrun
    · rcases h hrun with ⟨c, rfl⟩ | ⟨c, rfl⟩
      · exact .inr ⟨c, hall c (by simp), .inl rfl⟩
      · exact .inr ⟨c, hall c (by simp), .inr rfl⟩

/-- The shape of an entry, position by position. -/
theorem wellShaped_iff_positions (b : Buffer) :
    WellShaped b.chars ↔ ∀ pos ≤ b.length, b.segmentPoints pos ≤ 1 ∧
      IsOperatorRun (b.runAround Glyph.isOperator pos) := by
  have hoperators : ∀ pos, IsOperatorRun (b.runAround Glyph.isOperator pos) ↔
      (b.runAround Glyph.isOperator pos ≠ [] →
        IsSignedOperator (b.runAround Glyph.isOperator pos)) := by
    intro pos
    obtain ⟨before, after, -, hrun, -, -⟩ := b.isRun_runAround Glyph.isOperator pos
    exact isOperatorRun_iff hrun.all
  simp only [hoperators, ← count_runAround, imp_and, forall_and]
  rw [← forall_runs_iff (P := fun run => run.count '.' ≤ 1),
    ← forall_runs_iff (P := fun run => run ≠ [] → IsSignedOperator run)]
  exact ⟨fun h => ⟨h.points, h.operators⟩, fun h => ⟨h.1, h.2⟩⟩

/-! ## Ranges without other characters -/

/-- A range of the text that a position lies in, ends included, and that holds only characters with
`p`. A position behind the end is the end. -/
structure Spans (b : Buffer) (p : Char → Bool) (pos start stop : Nat) : Prop where
  start_le : start ≤ min pos b.length
  le_stop : min pos b.length ≤ stop
  stop_le : stop ≤ b.length
  all : ∀ i, start ≤ i → i < stop → ∀ c ∈ b.charAt? i, p c = true

/-- A range that no other such range goes beyond. -/
def IsMaximal (b : Buffer) (p : Char → Bool) (pos start stop : Nat) : Prop :=
  b.Spans p pos start stop ∧ ∀ start' stop', b.Spans p pos start' stop' →
    start' ≤ start → stop ≤ stop' → start' = start ∧ stop' = stop

theorem spans_run (b : Buffer) (p : Char → Bool) (pos : Nat) :
    b.Spans p pos (b.runStart p pos) (b.runStop p pos) := by
  obtain ⟨before, after, hsplit, hrun, hstart, hstop⟩ := b.isRun_runAround p pos
  refine ⟨Nat.sub_le .., Nat.le_add_right .., ?_, ?_⟩
  · simp [hstop, length, hsplit]
  · intro i hle hlt c hc
    rw [hstart] at hle
    rw [hstop] at hlt
    have hget : (b.runAround p pos)[i - before.length]? = some c := by
      rw [charAt?, hsplit, List.append_assoc, List.getElem?_append_right hle,
        List.getElem?_append_left (by omega)] at hc
      exact hc
    exact hrun.all c (List.mem_of_getElem? hget)

/-- A range without other characters does not reach beyond the run. -/
theorem Spans.within_run (h : b.Spans p pos start stop) :
    b.runStart p pos ≤ start ∧ stop ≤ b.runStop p pos := by
  obtain ⟨before, after, hsplit, hrun, hstart, hstop⟩ := b.isRun_runAround p pos
  have hbelow := Nat.le_trans (b.spans_run p pos).start_le h.le_stop
  have habove := Nat.le_trans h.start_le (b.spans_run p pos).le_stop
  rw [hstart] at hbelow
  rw [hstop] at habove
  constructor
  · -- Otherwise the character before the run would be in the range.
    rw [hstart]
    by_contra hlt
    rcases List.eq_nil_or_concat' before with rfl | ⟨front, c, rfl⟩
    · exact hlt (Nat.zero_le start)
    · have hc : b.charAt? front.length = some c := by simp [charAt?, hsplit]
      rw [List.length_append, List.length_singleton] at hlt hbelow
      have hin := h.all front.length (by omega) (by omega) c hc
      rw [hrun.before c (by simp)] at hin
      cases hin
  · -- Otherwise the character behind it would.
    rw [hstop]
    by_contra hlt
    cases after with
    | nil => exact hlt (by simpa [length, hsplit] using h.stop_le)
    | cons c after =>
      have hc : b.charAt? (before.length + (b.runAround p pos).length) = some c := by
        rw [charAt?, hsplit, ← List.length_append, List.getElem?_append_right (Nat.le_refl _),
          Nat.sub_self]
        rfl
      have hin := h.all _ habove (by omega) c hc
      rw [hrun.after c rfl] at hin
      cases hin

/-- **The run around a position is the one maximal range** that holds no other characters. -/
theorem isMaximal_iff :
    b.IsMaximal p pos start stop ↔ start = b.runStart p pos ∧ stop = b.runStop p pos := by
  have hspans := b.spans_run p pos
  constructor
  · rintro ⟨h, hmax⟩
    obtain ⟨hstart, hstop⟩ := h.within_run
    obtain ⟨hs, ht⟩ := hmax _ _ hspans hstart hstop
    exact ⟨hs.symm, ht.symm⟩
  · rintro ⟨rfl, rfl⟩
    refine ⟨hspans, fun start' stop' h hstart hstop => ?_⟩
    obtain ⟨hstart', hstop'⟩ := h.within_run
    exact ⟨Nat.le_antisymm hstart hstart', Nat.le_antisymm hstop' hstop⟩

end Buffer

namespace Checked

/-! ## The check of the whole text -/

/-- Whether operators follow each other well, where `operators` of them stand before the text. -/
def operatorsFit (operators : Nat) : List Char → Bool
  | [] => true
  | c :: text =>
    if Glyph.isOperator c then
      if 2 < operators + 1 || (operators + 1 == 2 && c != '-') then false
      else operatorsFit (operators + 1) text
    else operatorsFit 0 text

/-- The check in two passes: the operands between the operators, then the operators in a row. -/
def isWellFormed (b : Buffer) : Bool :=
  ((b.chars.splitOnP Glyph.isOperator).all fun operand => operand.count '.' ≤ 1) &&
    operatorsFit 0 b.chars

theorem operatorsFit_operator {operators : Nat} {c : Char} (text : List Char)
    (hc : Glyph.isOperator c = true) :
    operatorsFit operators (c :: text) =
      ((operators == 0 || (operators == 1 && c == '-')) && operatorsFit (operators + 1) text) := by
  rw [operatorsFit, if_pos hc]
  match operators with
  | 0 => simp
  | 1 => by_cases hminus : c = '-' <;> simp [hminus]
  | operators + 2 => simp

/-- One pass over the text counts both. -/
theorem continuesWell_eq {points operators : Nat} {text operand : List Char}
    {more : List (List Char)} (hpoints : points ≤ 1)
    (hsplit : text.splitOnP Glyph.isOperator = operand :: more) :
    Buffer.continuesWell points operators text =
      ((decide (points + operand.count '.' ≤ 1) && more.all fun operand => operand.count '.' ≤ 1) &&
        operatorsFit operators text) := by
  induction text generalizing points operators operand more with
  | nil =>
    obtain ⟨rfl, rfl⟩ : [] = operand ∧ [] = more := by simpa using hsplit
    simp [Buffer.continuesWell, operatorsFit, hpoints]
  | cons c text ih =>
    obtain ⟨first, rest, hrest⟩ := List.exists_cons_of_ne_nil
      (List.splitOnP_ne_nil Glyph.isOperator text)
    rw [List.splitOnP_cons_eq_if_modifyHead, hrest] at hsplit
    rw [Buffer.continuesWell]
    split at hsplit
    · next hc =>
      -- An operator ends the operand, so all points before it have been counted.
      obtain ⟨rfl, rfl⟩ : [] = operand ∧ first :: rest = more := by simpa using hsplit
      rw [if_pos hc, operatorsFit_operator text hc, ih (Nat.zero_le 1) hrest]
      simp [hpoints, Bool.and_left_comm, Bool.and_assoc]
    · next hc =>
      obtain ⟨rfl, rfl⟩ : c :: first = operand ∧ rest = more := by simpa using hsplit
      rw [if_neg hc, operatorsFit, if_neg hc]
      by_cases hpoint : c = '.'
      · subst hpoint
        rw [if_pos (beq_self_eq_true '.'), ih (Nat.le_refl 1) hrest, List.count_cons_self]
        rcases Nat.le_one_iff_eq_zero_or_eq_one.mp hpoints with rfl | rfl
        · simp [Nat.add_comm]
        · have hmany : ¬ 1 + (first.count '.' + 1) ≤ 1 := by omega
          simp [hmany]
      · rw [if_neg (by simpa using hpoint), ih hpoints hrest,
          List.count_cons_of_ne (by simpa using hpoint)]

/-- **The check of the whole text in two passes** is the one in a single pass. -/
theorem isWellFormed_eq (b : Buffer) : isWellFormed b = b.isWellFormed := by
  obtain ⟨first, rest, hsplit⟩ := List.exists_cons_of_ne_nil
    (List.splitOnP_ne_nil Glyph.isOperator b.chars)
  rw [isWellFormed, Buffer.isWellFormed, continuesWell_eq (Nat.zero_le 1) hsplit, hsplit,
    List.all_cons, Nat.zero_add]

end Checked

/-- **The check of the whole text is the check around every position.** The check is the one in two
passes. At each position the operand has at most one point, and what stands from the start to the end of
the operators is nothing, one operator, or one operator and a minus. The operand is the one maximal range
free of operators there, and a position lies in both ranges, clamped to the end if it is behind it. -/
theorem isWellFormed_iff_positions (b : Buffer) :
    Checked.isWellFormed b = b.isWellFormed ∧
      (b.isWellFormed = true ↔ ∀ pos ≤ b.length, b.segmentPoints pos ≤ 1 ∧
        ∃ run, Checked.slice b.chars (b.operatorsStart pos) (b.operatorsStop pos) = some run ∧
          Buffer.IsOperatorRun run) ∧
      ∀ pos,
        (∀ start stop, b.IsMaximal Buffer.isSegmentChar pos start stop ↔
          start = b.segmentStart pos ∧ stop = b.segmentStop pos) ∧
        (b.segmentStart pos ≤ min pos b.length ∧ min pos b.length ≤ b.segmentStop pos ∧
          b.segmentStop pos ≤ b.length) ∧
        b.operatorsStart pos ≤ min pos b.length ∧ min pos b.length ≤ b.operatorsStop pos ∧
          b.operatorsStop pos ≤ b.length := by
  refine ⟨Checked.isWellFormed_eq b, ?_, fun pos => ⟨fun start stop => Buffer.isMaximal_iff, ?_, ?_⟩⟩
  · have hslice : ∀ pos, (∃ run, Checked.slice b.chars (b.operatorsStart pos) (b.operatorsStop pos) =
        some run ∧ Buffer.IsOperatorRun run) ↔
          Buffer.IsOperatorRun (b.runAround Glyph.isOperator pos) := by
      intro pos
      rw [Buffer.operatorsStart, Buffer.operatorsStop, Checked.slice_run]
      simp [Buffer.runAround]
    simp only [hslice]
    rw [Buffer.isWellFormed_iff, Buffer.wellShaped_iff_positions]
  · have hspans := b.spans_run Buffer.isSegmentChar pos
    exact ⟨hspans.start_le, hspans.le_stop, hspans.stop_le⟩
  · have hspans := b.spans_run Glyph.isOperator pos
    exact ⟨hspans.start_le, hspans.le_stop, hspans.stop_le⟩

end PocketCalculator
