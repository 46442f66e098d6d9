import PocketCalculator.Proofs.Buffer.Positions
import PocketCalculator.Proofs.Buffer.Seam
import PocketCalculator.Proofs.Editor.Safety

/-!
# Edits that keep the shape

An editor refuses an edit after which a well-formed entry would not be one. For most events it never
comes to that: the edit looks at the characters next to its change and at the operand around it, and
that is enough for the whole entry (`isWellFormed_perform`). So the editor that such an event leads
to is the edited one (`apply_eq_edit`). A constant and the sign key do rely on being refused.
-/

namespace PocketCalculator

/-- The edit of the event looks at all that it can spoil. -/
def Event.checksItself : Event → Bool
  | .digit c => (Constant.ofSymbol? c).isNone
  | .signToggle => false
  | _ => true

namespace Editor

open Buffer (Formed pointsBefore operatorsBefore pointsAfter meet meet_parts formed_insertOperand
  formed_insertOperation formed_insertOperator formed_append)

variable {s : Editor}

/-! ## The entry around the cursor -/

theorem formed_ofChars {text : List Char} (h : Formed text) : Formed (Buffer.ofChars text).chars := by
  by_cases hnil : text = []
  · rw [hnil]
    rfl
  · rwa [Buffer.chars_ofChars hnil]

theorem chars_insert {text : List Char} (hne : text ≠ []) :
    (s.insert text).buffer.chars =
      s.buffer.chars.take s.cursor ++ text ++ s.buffer.chars.drop s.cursor := by
  show (Buffer.ofChars (s.buffer.chars.take (min s.cursor (min s.cursor s.buffer.length)) ++ text ++
    s.buffer.chars.drop (min s.cursor s.buffer.length))).chars = _
  rw [← Nat.min_assoc, Nat.min_self, Checked.take_min_length, Checked.drop_min_length]
  exact Buffer.chars_ofChars (by simp [hne])

theorem formed_around (h : Formed s.buffer.chars) :
    Formed (s.buffer.chars.take s.cursor ++ s.buffer.chars.drop s.cursor) := by
  rwa [List.take_append_drop]

theorem take_eq_concat {b : Buffer} {pos : Nat} {c : Char} (h : b.charBefore? pos = some c) :
    b.chars.take pos = b.chars.take (pos - 1) ++ [c] := by
  cases pos with
  | zero => cases h
  | succ pos =>
    obtain ⟨hlt, rfl⟩ := List.getElem?_eq_some_iff.mp h
    exact List.take_succ_eq_append_getElem hlt

theorem take_of_charBefore? {b : Buffer} {pos : Nat} {c : Char} (h : b.charBefore? pos = some c) :
    ∃ front, b.chars.take pos = front ++ [c] :=
  ⟨_, take_eq_concat h⟩

/-- Behind a character that is no operator an operator can stand. -/
theorem operatorsBefore_of_charBefore? {b : Buffer} {pos : Nat} {c : Char}
    (h : b.charBefore? pos = some c) (hc : Glyph.isOperator c = false) :
    operatorsBefore (b.chars.take pos) = 0 := by
  obtain ⟨front, hfront⟩ := take_of_charBefore? h
  rw [hfront]
  exact (Buffer.before_operand front hc).2

theorem operatorsBefore_of_afterDigit (h : s.afterDigit = true) :
    operatorsBefore (s.buffer.chars.take s.cursor) = 0 := by
  obtain ⟨c, hbefore, hc⟩ := (Option.any_eq_true ..).mp h
  refine operatorsBefore_of_charBefore? hbefore ?_
  rcases Bool.or_eq_true_iff.mp hc with hdigit | hpoint
  · exact isOperator_of_isDigit hdigit
  · rw [beq_iff_eq.mp hpoint]
    decide

theorem operatorsBefore_of_afterClosedOperand (h : s.afterClosedOperand = true) :
    operatorsBefore (s.buffer.chars.take s.cursor) = 0 := by
  unfold afterClosedOperand at h
  split at h
  · next hbefore => exact operatorsBefore_of_charBefore? hbefore (by decide)
  · next hbefore => exact operatorsBefore_of_charBefore? hbefore (by decide)
  · next hbefore => exact operatorsBefore_of_charBefore? hbefore (by decide)
  · cases h

theorem operatorsBefore_of_operand (h : (s.afterDigit || s.afterClosedOperand) = true) :
    operatorsBefore (s.buffer.chars.take s.cursor) = 0 := by
  rcases Bool.or_eq_true_iff.mp h with hdigit | hclosed
  · exact operatorsBefore_of_afterDigit hdigit
  · exact operatorsBefore_of_afterClosedOperand hclosed

/-! ## Insertions -/

theorem isWellFormed_fill {text : List Char} (h : Formed text) :
    (s.fill text).buffer.isWellFormed = true :=
  formed_ofChars h

/-- What holds no operator and no point goes in anywhere. -/
theorem isWellFormed_insert (h : Formed s.buffer.chars) {text : List Char} (hne : text ≠ [])
    (hoperand : ∀ c ∈ text, Glyph.isOperator c = false) (hpoints : text.count '.' = 0) :
    (s.insert text).buffer.isWellFormed = true := by
  have hcommon := (meet_parts (formed_around h)).2.2
  show Formed _
  rw [chars_insert hne]
  exact formed_insertOperand (formed_around h) hoperand hne (by omega)

theorem isWellFormed_insertFactor (h : Formed s.buffer.chars) {text : List Char} (hne : text ≠ [])
    (hoperand : ∀ c ∈ text, Glyph.isOperator c = false)
    (hleft : operatorsBefore (s.buffer.chars.take s.cursor) = 0)
    (hpoints : text.count '.' + pointsAfter (s.buffer.chars.drop s.cursor) ≤ 1) :
    (s.insert ('*' :: text)).buffer.isWellFormed = true := by
  show Formed _
  rw [chars_insert (List.cons_ne_nil _ _)]
  exact formed_insertOperation (formed_around h) rfl hleft hoperand hne hpoints

theorem pointsAfter_drop_le (h : Formed s.buffer.chars) :
    pointsAfter (s.buffer.chars.drop s.cursor) ≤ 1 :=
  Nat.le_trans (Nat.le_add_left ..) (meet_parts (formed_around h)).2.2

theorem isWellFormed_insertDigit (h : Formed s.buffer.chars) {c : Char} (hc : c.isDigit = true) :
    (s.insertDigit c).buffer.isWellFormed = true := by
  have hoperand : ∀ d ∈ [c], Glyph.isOperator d = false := by
    intro d hd
    rw [List.mem_singleton.mp hd]
    exact isOperator_of_isDigit hc
  have hpoints : [c].count '.' = 0 := by
    rw [List.count_eq_zero, List.mem_singleton]
    rintro rfl
    cases hc
  unfold insertDigit
  split
  · exact isWellFormed_fill (Buffer.continuesWell_operand hoperand (by omega))
  · split
    · next hclosed =>
      refine isWellFormed_insertFactor h (List.cons_ne_nil _ _) hoperand
        (operatorsBefore_of_afterClosedOperand hclosed) ?_
      have hafter := pointsAfter_drop_le h
      omega
    · exact isWellFormed_insert h (List.cons_ne_nil _ _) hoperand hpoints

section NoPoint

variable (hnone : s.buffer.segmentHasPoint s.cursor = false)

include hnone

/-- The operand around the cursor has no point on either side of it. -/
theorem points_of_segmentHasPoint : pointsBefore (s.buffer.chars.take s.cursor) = 0 ∧
    pointsAfter (s.buffer.chars.drop s.cursor) = 0 := by
  rw [Buffer.segmentHasPoint, decide_eq_false_iff_not, Nat.not_lt, Nat.le_zero] at hnone
  exact Nat.add_eq_zero_iff.mp hnone

/-- There a text with a point goes in. -/
theorem isWellFormed_insertPointed (h : Formed s.buffer.chars) {text : List Char} (hne : text ≠ [])
    (hoperand : ∀ c ∈ text, Glyph.isOperator c = false) (hpoints : text.count '.' ≤ 1) :
    (s.insert text).buffer.isWellFormed = true := by
  obtain ⟨hbefore, hafter⟩ := points_of_segmentHasPoint hnone
  show Formed _
  rw [chars_insert hne]
  exact formed_insertOperand (formed_around h) hoperand hne (by omega)

theorem isWellFormed_insertPointedFactor (h : Formed s.buffer.chars) {text : List Char}
    (hne : text ≠ []) (hoperand : ∀ c ∈ text, Glyph.isOperator c = false)
    (hleft : operatorsBefore (s.buffer.chars.take s.cursor) = 0) (hpoints : text.count '.' ≤ 1) :
    (s.insert ('*' :: text)).buffer.isWellFormed = true := by
  have hafter := (points_of_segmentHasPoint hnone).2
  exact isWellFormed_insertFactor h hne hoperand hleft (by omega)

end NoPoint

theorem isWellFormed_insertPoint (h : Formed s.buffer.chars) :
    s.insertPoint.buffer.isWellFormed = true := by
  unfold insertPoint
  split
  · exact h
  · next hnone =>
    rw [Bool.not_eq_true] at hnone
    split
    · exact isWellFormed_fill rfl
    · split
      · next hclosed =>
        exact isWellFormed_insertPointedFactor hnone h (List.cons_ne_nil _ _)
          (by simp [Glyph.isOperator]) (operatorsBefore_of_afterClosedOperand hclosed) (by decide)
      · split
        · exact isWellFormed_insertPointed hnone h (by decide) (by simp [Glyph.isOperator])
            (by decide)
        · exact isWellFormed_insertPointed hnone h (by decide) (by simp [Glyph.isOperator])
            (by decide)

theorem isWellFormed_insertPercent (h : Formed s.buffer.chars) :
    s.insertPercent.buffer.isWellFormed = true := by
  unfold insertPercent
  split
  · exact isWellFormed_insert h (by decide) (by simp [Glyph.isOperator]) (by decide)
  · exact h

theorem isWellFormed_insertBracket (h : Formed s.buffer.chars) :
    s.insertBracket.buffer.isWellFormed = true := by
  unfold insertBracket
  split
  · exact isWellFormed_insert h (by decide) (by simp [Glyph.isOperator]) (by decide)
  · dsimp only
    split
    · exact isWellFormed_fill rfl
    · split
      · next hfactor =>
        refine isWellFormed_insertFactor h (by decide) (by simp [Glyph.isOperator])
          (operatorsBefore_of_operand hfactor) ?_
        have hafter := pointsAfter_drop_le h
        have hnone : ['('].count '.' = 0 := by decide
        omega
      · exact isWellFormed_insert h (by decide) (by simp [Glyph.isOperator]) (by decide)

/-! ## Operators -/

/-- The texts that a run leaves on both sides do not go on with it. -/
theorem exists_around_run (b : Buffer) (p : Char → Bool) (pos : Nat) :
    ∃ before run after, b.chars = before ++ run ++ after ∧
      b.chars.take (b.runStart p pos) = before ∧ b.chars.drop (b.runStop p pos) = after ∧
      b.runStart p pos ≤ b.runStop p pos ∧ b.runStop p pos ≤ b.length ∧
      Text.IsRun p before run after := by
  obtain ⟨before, left, right, after, hleft, hright, hrun⟩ := b.exists_run_around p pos
  obtain ⟨hstart, hstop, hsplit⟩ := Buffer.run_around hleft hright hrun
  refine ⟨before, left ++ right, after, hsplit, ?_, ?_, ?_, ?_, hrun⟩
  · rw [hstart, hsplit, List.append_assoc, List.take_left]
  · rw [hstop, hsplit, ← List.length_append, List.drop_left]
  · rw [hstart, hstop]
    exact Nat.le_add_right ..
  · have hlength : b.length = (before ++ (left ++ right)).length + after.length := by
      rw [Buffer.length, hsplit, List.length_append]
    rw [hstop, ← List.length_append, hlength]
    exact Nat.le_add_right ..

theorem chars_splice {b : Buffer} {start stop : Nat} {text : List Char} (hle : start ≤ stop)
    (hstop : stop ≤ b.length) (hne : b.chars.take start ++ text ++ b.chars.drop stop ≠ []) :
    (b.splice start stop text).1.chars = b.chars.take start ++ text ++ b.chars.drop stop := by
  show (Buffer.ofChars (b.chars.take (min start (min stop b.length)) ++ text ++
    b.chars.drop (min stop b.length))).chars = _
  rw [Nat.min_eq_left hstop, Nat.min_eq_left hle]
  exact Buffer.chars_ofChars hne

theorem operatorsBefore_eq_zero {text : List Char}
    (h : ∀ c ∈ text.getLast?, Glyph.isOperator c = false) : operatorsBefore text = 0 := by
  rw [operatorsBefore, Text.runBack_eq_nil h]
  rfl

theorem isWellFormed_insertOperator (h : Formed s.buffer.chars) (c : Char) :
    (s.insertOperator c).buffer.isWellFormed = true := by
  unfold insertOperator
  dsimp only
  split
  · next hoperator =>
    obtain ⟨before, run, after, hsplit, htake, hdrop, hle, hstop, hrun⟩ :=
      exists_around_run s.buffer Glyph.isOperator s.cursor
    show Formed _
    rw [Buffer.operatorsStart, Buffer.operatorsStop, chars_splice hle hstop (by simp), htake, hdrop]
    rw [hsplit] at h
    obtain ⟨hfront, hafter, hcommon⟩ := meet_parts h
    refine formed_insertOperator (formed_append.mp hfront).1 hafter hoperator ?_ hrun.after
      (Nat.le_trans (Nat.le_add_left ..) hcommon)
    exact operatorsBefore_eq_zero hrun.before
  · exact h

/-! ## Deletions -/

/-- What the check at the seam of a deletion sees: the neighbours of the seam, and the points of the
operand around it. -/
theorem seam_of_take_drop {b : Buffer} {left right : List Char} (hb : b.chars = left ++ right) :
    b.charBefore? left.length = left.getLast? ∧ b.charAt? left.length = right.head? ∧
      b.segmentPoints left.length = pointsBefore left + pointsAfter right := by
  refine ⟨?_, ?_, ?_⟩
  · rcases List.eq_nil_or_concat left with rfl | ⟨front, c, rfl⟩
    · rfl
    · rw [List.concat_eq_append] at hb ⊢
      rw [List.length_append, List.length_singleton, Buffer.charBefore?, hb,
        List.getLast?_concat, List.append_assoc, List.getElem?_append_right (Nat.le_refl _),
        Nat.sub_self]
      rfl
  · rw [Buffer.charAt?, hb, List.getElem?_append_right (Nat.le_refl _), Nat.sub_self,
      List.head?_eq_getElem?]
  · rw [Buffer.segmentPoints, Buffer.runBefore, Buffer.runAfter, hb, List.take_left,
      List.drop_left]
    rfl

/-- The check at the seam is enough for two texts that are well formed by themselves. -/
theorem formed_of_seam {left right : List Char} (hl : Formed left) (hr : Formed right)
    (hoperators : ((Buffer.ofChars (left ++ right)).charBefore? left.length).any Glyph.isOperator
      = false ∨ ((Buffer.ofChars (left ++ right)).charAt? left.length).any Glyph.isOperator = false)
    (hpoints : (Buffer.ofChars (left ++ right)).segmentPoints left.length ≤ 1) :
    Formed (left ++ right) := by
  by_cases hnil : left ++ right = []
  · rw [hnil]
    rfl
  · obtain ⟨hbefore, hat, hcount⟩ := seam_of_take_drop (Buffer.chars_ofChars hnil)
    rw [hbefore, hat] at hoperators
    refine meet hl hr (hcount ▸ hpoints) (hoperators.imp (fun hno => ?_) fun hno c hc => ?_)
    · refine operatorsBefore_eq_zero fun c hc => ?_
      rw [Option.mem_def.mp hc] at hno
      exact hno
    · rw [Option.mem_def.mp hc] at hno
      exact hno

/-- The shape is kept by a deletion because one that would break it at the seam is refused. -/
theorem isWellFormed_delete (h : Formed s.buffer.chars) (start stop : Nat) :
    (s.delete start stop).buffer.isWellFormed = true := by
  unfold delete
  split
  · next hrange =>
    dsimp only
    split
    · exact h
    · next hseam =>
      have hbuffer : (s.buffer.splice start stop []).1 =
          Buffer.ofChars (s.buffer.chars.take start ++
            s.buffer.chars.drop (min stop s.buffer.length)) := by
        simp only [Buffer.splice, Nat.min_eq_left (Nat.le_of_lt hrange), List.append_nil]
      have hstart : (s.buffer.chars.take start).length = start := by
        rw [List.length_take]
        exact Nat.min_eq_left (Nat.le_of_lt (Nat.lt_of_lt_of_le hrange (Nat.min_le_right ..)))
      -- Both sides are well formed by themselves, since they were in the entry.
      have hside : ∀ pos, Formed (s.buffer.chars.take pos) ∧ Formed (s.buffer.chars.drop pos) := by
        intro pos
        rw [← List.take_append_drop pos s.buffer.chars] at h
        obtain ⟨hl, hr, -⟩ := meet_parts h
        exact ⟨hl, hr⟩
      simp only [Bool.or_eq_true, Bool.and_eq_true, decide_eq_true_eq, not_or, not_and_or,
        Bool.not_eq_true, Nat.not_lt] at hseam
      refine (congrArg Buffer.isWellFormed hbuffer).trans (formed_ofChars ?_)
      refine formed_of_seam (hside start).1 (hside _).2 ?_ ?_
      · rw [hstart, ← hbuffer]
        exact hseam.1
      · rw [hstart, ← hbuffer]
        exact hseam.2
  · exact h

theorem isWellFormed_backspace (h : Formed s.buffer.chars) :
    s.backspace.buffer.isWellFormed = true := by
  unfold backspace
  split
  · exact isWellFormed_delete h ..
  · exact h

/-! ## Function keys -/

/-- What a key puts before the entry ends in an operand without a point, and the entry does not end
with an operator, so what the key puts after it goes on well. -/
theorem isWellFormed_applyFunction (h : Formed s.buffer.chars) (key : FunctionKey) :
    (s.applyFunction key).buffer.isWellFormed = true := by
  unfold applyFunction
  split
  · exact h
  · next hend =>
    obtain ⟨front, c, hchars⟩ : ∃ front c, s.buffer.chars = front ++ [c] :=
      ⟨_, _, (List.dropLast_concat_getLast s.buffer.ne_nil).symm⟩
    have hc : Glyph.isOperator c = false := by
      rw [Buffer.endsWithOperator, Buffer.last?, hchars, List.getLast?_concat] at hend
      simpa using hend
    have hopening : Formed key.opening ∧ pointsBefore key.opening = 0 ∧
        operatorsBefore key.opening = 0 := by
      cases key <;> exact ⟨rfl, rfl, rfl⟩
    have hentry : Formed (key.opening ++ s.buffer.chars) := by
      refine formed_append.mpr ⟨hopening.1, ?_⟩
      rw [hopening.2.1, hopening.2.2]
      exact h
    have hbefore : operatorsBefore (key.opening ++ s.buffer.chars) = 0 := by
      rw [hchars, ← List.append_assoc]
      exact (Buffer.before_operand _ hc).2
    refine isWellFormed_fill ?_
    rw [key.wrap_eq]
    refine formed_append.mpr ⟨hentry, ?_⟩
    rw [hbefore]
    cases key <;> rfl

/-! ## All events -/

/-- **Looking near the change is enough.** An edit that checks itself keeps the shape of the whole
entry, wherever the cursor is. -/
theorem isWellFormed_perform (h : Formed s.buffer.chars) {event : Event}
    (haccepts : s.layout.accepts s.mode event = true) (hchecks : event.checksItself = true) :
    (s.perform event).buffer.isWellFormed = true := by
  cases event with
  | digit c =>
    have hnone : Constant.ofSymbol? c = none := Option.isNone_iff_eq_none.mp hchecks
    have hdigit : c.isDigit = true := by
      unfold Layout.accepts at haccepts
      simpa only [hnone] using haccepts
    unfold perform
    simp only [hnone]
    exact isWellFormed_insertDigit h hdigit
  | operator c => exact isWellFormed_insertOperator h c
  | point => exact isWellFormed_insertPoint h
  | percent => exact isWellFormed_insertPercent h
  | clear => rfl
  | backspace => exact isWellFormed_backspace h
  | delete start stop => exact isWellFormed_delete h start stop
  | signToggle => cases hchecks
  | bracket => exact isWellFormed_insertBracket h
  | function key => exact isWellFormed_applyFunction h key
  | modeToggle => rfl
  | move direction => exact h

theorem isWellFormed_edit (h : s.buffer.isWellFormed = true) {event : Event}
    (haccepts : s.layout.accepts s.mode event = true) (hchecks : event.checksItself = true) :
    (s.edit event).buffer.isWellFormed = true := by
  unfold edit
  split
  · exact isWellFormed_perform (s := s.reset) rfl haccepts hchecks
  · exact isWellFormed_perform h haccepts hchecks

/-- **No such event is swallowed.** If the entry is well formed, the edit of an event that is accepted
and checks itself is well formed, so the last check of the editor lets it through. -/
theorem apply_eq_edit (h : s.buffer.isWellFormed = true) {event : Event}
    (haccepts : s.layout.accepts s.mode event = true) (hchecks : event.checksItself = true) :
    (s.edit event).buffer.isWellFormed = true ∧
      (s.buffer.isWellFormed && !(s.edit event).buffer.isWellFormed) = false ∧
      s.apply event = s.edit event := by
  have hedit := isWellFormed_edit h haccepts hchecks
  have hguard : (s.buffer.isWellFormed && !(s.edit event).buffer.isWellFormed) = false := by
    rw [hedit, Bool.not_true, Bool.and_false]
  refine ⟨hedit, hguard, ?_⟩
  unfold apply
  rw [if_pos haccepts]
  dsimp only
  rw [hguard, if_neg Bool.false_ne_true]

/-- A digit goes between an operator and the sign behind it. -/
theorem digit_splits_operators :
    let s : Editor := { ofText "3*-4".toList with cursor := 2 }
    s.buffer.isWellFormed = true ∧ s.layout.accepts s.mode (.digit '5') = true ∧
      Event.checksItself (.digit '5') = true ∧
      (s.edit (.digit '5')).buffer.isWellFormed = true ∧
      (s.buffer.isWellFormed && !(s.edit (.digit '5')).buffer.isWellFormed) = false ∧
      s.apply (.digit '5') = s.edit (.digit '5') := by
  intro s
  have h : s.buffer.isWellFormed = true := by decide
  have haccepts : s.layout.accepts s.mode (.digit '5') = true := by decide
  exact ⟨h, haccepts, rfl, apply_eq_edit h haccepts rfl⟩

end Editor

end PocketCalculator
