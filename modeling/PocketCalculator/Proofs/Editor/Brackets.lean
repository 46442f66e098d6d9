import PocketCalculator.Proofs.Editor.AtEnd
import PocketCalculator.Proofs.Editor.Change

/-!
# The brackets of an entry

The bracket key closes what it opened, so an entry in which nothing is deleted has at most one open
bracket more than closed ones, and `bracketCloses` says whether it has (`Counted`). Of all the text
only its brackets matter here (`brackets`): most edits keep them as they are, and a function key puts a
pair around them. If the cursor stays at the end too, no bracket is closed before it is opened
(`Held`). `brackets_run` states both for whole runs.
-/

namespace PocketCalculator

namespace Editor

def isBracket (c : Char) : Bool :=
  c == '(' || c == ')'

def brackets (text : List Char) : List Char :=
  text.filter isBracket

/-- As many are open as closed, or one more where the bracket key closes next. -/
def Counted (text : List Char) (closes : Bool) : Prop :=
  text.count '(' = text.count ')' + closes.toNat

/-- No part from the beginning closes more than it opens. -/
def Held (text : List Char) : Prop :=
  ∀ front, front <+: text → front.count ')' ≤ front.count '('

/-! ## Brackets alone -/

theorem count_brackets {c : Char} (hc : isBracket c = true) (text : List Char) :
    (brackets text).count c = text.count c :=
  List.count_filter hc

theorem brackets_append (text more : List Char) :
    brackets (text ++ more) = brackets text ++ brackets more :=
  List.filter_append ..

theorem counted_brackets {text : List Char} {closes : Bool} :
    Counted (brackets text) closes ↔ Counted text closes := by
  rw [Counted, Counted, count_brackets (by decide), count_brackets (by decide)]

/-- The other characters do not matter. -/
theorem held_of_brackets {text : List Char} (h : Held (brackets text)) : Held text := by
  intro front hfront
  have hheld := h (brackets front) (hfront.filter isBracket)
  rwa [count_brackets (by decide), count_brackets (by decide)] at hheld

theorem brackets_of_plain {text : List Char} (h : text.all isPlain = true) : brackets text = [] := by
  refine List.filter_eq_nil_iff.mpr fun c hc hbracket => ?_
  have hplain := List.all_eq_true.mp h c hc
  rw [isBracket, Bool.or_eq_true, beq_iff_eq, beq_iff_eq] at hbracket
  rcases hbracket with rfl | rfl
  · exact absurd hplain (by decide)
  · exact absurd hplain (by decide)

theorem brackets_ofChars (text : List Char) :
    brackets (Buffer.ofChars text).chars = brackets text := by
  by_cases hnil : text = []
  · rw [hnil]
    rfl
  · rw [Buffer.chars_ofChars hnil]

theorem Replaces.brackets {b b' : Buffer} {old new : List Char} (h : b.Replaces old new b') :
    ∃ left right, Editor.brackets b.chars = left ++ Editor.brackets old ++ right ∧
      Editor.brackets b'.chars = left ++ Editor.brackets new ++ right := by
  obtain ⟨left, right, hsplit, rfl⟩ := h
  refine ⟨Editor.brackets left, Editor.brackets right, ?_, ?_⟩
  · rw [hsplit, brackets_append, brackets_append]
  · rw [brackets_ofChars, brackets_append, brackets_append]

variable {s t : Editor}

theorem PlainStep.brackets (h : s.PlainStep t) :
    Editor.brackets t.buffer.chars = Editor.brackets s.buffer.chars := by
  obtain ⟨old, new, hreplaces, hold, hnew⟩ := h.buffer
  obtain ⟨left, right, hs, ht⟩ := Replaces.brackets hreplaces
  rw [hs, ht, brackets_of_plain hold, brackets_of_plain hnew]

/-! ## What an edit does to them -/

/-- A function key puts a pair around the entry, or nothing. -/
theorem brackets_opening (key : FunctionKey) :
    brackets key.opening = [] ∧ brackets key.closing = [] ∨
      brackets key.opening = ['('] ∧ brackets key.closing = [')'] := by
  cases key <;> decide

theorem brackets_applyFunction (key : FunctionKey) :
    brackets (s.applyFunction key).buffer.chars = brackets s.buffer.chars ∨
      brackets (s.applyFunction key).buffer.chars = '(' :: brackets s.buffer.chars ++ [')'] := by
  unfold applyFunction
  split
  · exact .inl rfl
  · have hwrap : brackets (s.fill (key.wrap s.buffer.chars)).buffer.chars =
        brackets key.opening ++ brackets s.buffer.chars ++ brackets key.closing := by
      rw [fill, brackets_ofChars, key.wrap_eq, brackets_append, brackets_append]
    rw [hwrap]
    rcases brackets_opening key with ⟨hopening, hclosing⟩ | ⟨hopening, hclosing⟩
    · rw [hopening, hclosing, List.nil_append, List.append_nil]
      exact .inl rfl
    · rw [hopening, hclosing]
      exact .inr rfl

theorem bracketCloses_applyFunction (key : FunctionKey) :
    (s.applyFunction key).bracketCloses = s.bracketCloses := by
  unfold applyFunction
  split <;> rfl

theorem brackets_insertBracket (s : Editor) : ∃ left right,
    brackets s.buffer.chars = left ++ right ∧
      brackets s.insertBracket.buffer.chars =
        left ++ [if s.bracketCloses then ')' else '('] ++ right := by
  obtain ⟨old, factor, hreplaces, hold, hfactor⟩ := replaces_insertBracket s
  obtain ⟨left, right, hs, ht⟩ := Replaces.brackets hreplaces
  refine ⟨left, right, ?_, ?_⟩
  · rw [hs, brackets_of_plain hold, List.append_nil]
  · rw [ht, brackets_append, brackets_of_plain hfactor]
    cases s.bracketCloses <;> rfl

theorem brackets_insertBracket_atEnd (h : s.AtEnd) :
    brackets s.insertBracket.buffer.chars =
      brackets s.buffer.chars ++ [if s.bracketCloses then ')' else '('] := by
  have hinsert : ∀ text, brackets (s.insert text).buffer.chars =
      brackets s.buffer.chars ++ brackets text := by
    intro text
    rw [insert_eq_fill h, fill, brackets_ofChars, brackets_append]
  unfold insertBracket
  by_cases hcloses : s.bracketCloses = true
  · rw [if_pos hcloses, if_pos hcloses]
    exact hinsert [')']
  · rw [if_neg hcloses, if_neg hcloses]
    dsimp only
    split
    · next hzero =>
      rw [beq_iff_eq.mp hzero]
      rfl
    · split
      · exact hinsert ['*', '(']
      · exact hinsert ['(']

/-! ## The bracket key counts -/

/-- The bracket key closes next if there is one open bracket more than closed ones. -/
def CountsBrackets (s : Editor) : Prop :=
  Counted s.buffer.chars s.bracketCloses

theorem countsBrackets_reset (s : Editor) : s.reset.CountsBrackets :=
  rfl

theorem PlainStep.countsBrackets (hstep : s.PlainStep t) (h : s.CountsBrackets) :
    t.CountsBrackets := by
  rw [CountsBrackets, ← counted_brackets, hstep.brackets, hstep.bracketCloses, counted_brackets]
  exact h

theorem countsBrackets_insertBracket (h : s.CountsBrackets) : s.insertBracket.CountsBrackets := by
  obtain ⟨left, right, hs, ht⟩ := brackets_insertBracket s
  rw [CountsBrackets, ← counted_brackets, Counted] at h ⊢
  rw [hs, List.count_append, List.count_append] at h
  rw [ht, bracketCloses_insertBracket]
  simp only [List.count_append]
  cases hcloses : s.bracketCloses <;> rw [hcloses] at h <;> simp at h ⊢ <;> omega

theorem countsBrackets_applyFunction (h : s.CountsBrackets) (key : FunctionKey) :
    (s.applyFunction key).CountsBrackets := by
  rw [CountsBrackets, ← counted_brackets] at h ⊢
  rw [bracketCloses_applyFunction]
  rcases brackets_applyFunction (s := s) key with hsame | hpair
  · rwa [hsame]
  · rw [Counted] at h ⊢
    rw [hpair]
    simp only [List.count_append, List.count_cons]
    simp
    omega

theorem countsBrackets_perform (h : s.CountsBrackets) {event : Event}
    (haccepts : s.layout.accepts s.mode event = true) (hkept : event.deletes = false) :
    (s.perform event).CountsBrackets := by
  by_cases hplain : event.isPlain = true
  · exact (plainStep_perform haccepts hplain).countsBrackets h
  · cases event with
    | clear => exact countsBrackets_reset s
    | modeToggle => exact countsBrackets_reset _
    | bracket => exact countsBrackets_insertBracket h
    | function key => exact countsBrackets_applyFunction h key
    | backspace | delete => cases hkept
    | digit | operator | point | percent | signToggle | move => exact absurd rfl hplain

theorem brackets_display {v : Float} (hfinite : v.isFinite = true) :
    brackets (s.fill (Numeral.display v)).buffer.chars = [] := by
  rw [fill, brackets_ofChars, brackets_of_plain (all_isPlain_display hfinite)]

theorem countsBrackets_settle (h : s.CountsBrackets) : s.settle.CountsBrackets := by
  rcases settle_cases s with ⟨v, hfinite, hs⟩ | ⟨overlay, hs⟩
  · rw [hs, CountsBrackets, ← counted_brackets]
    show Counted (brackets (s.fill (Numeral.display v)).buffer.chars) false
    rw [brackets_display hfinite]
    rfl
  · rw [hs]
    exact h

theorem countsBrackets_operate (h : s.CountsBrackets) {operation : Operation}
    (hkept : ∀ event, operation = .event event → event.deletes = false) :
    (s.operate operation).CountsBrackets := by
  cases operation with
  | withMode | withLayout => exact h
  | evaluate => exact countsBrackets_settle h
  | event event =>
    exact apply_keeps countsBrackets_reset
      (fun s haccepts hs => countsBrackets_perform hs haccepts (hkept event rfl)) h

/-! ## At the end brackets are closed in order -/

theorem held_open {text : List Char} (h : Held text) : Held (text ++ ['(']) := by
  intro front hfront
  rcases List.prefix_concat_iff.mp hfront with rfl | hfront
  · have hall := h text List.prefix_rfl
    rw [List.count_append, List.count_append]
    exact Nat.add_le_add hall (by decide)
  · exact h front hfront

theorem held_close {text : List Char} (h : Held text) (hopen : text.count ')' < text.count '(') :
    Held (text ++ [')']) := by
  intro front hfront
  rcases List.prefix_concat_iff.mp hfront with rfl | hfront
  · rw [List.count_append, List.count_append]
    exact hopen
  · exact h front hfront

theorem held_enclose {text : List Char} (h : Held text) : Held ('(' :: text ++ [')']) := by
  have hopened : Held ('(' :: text) := by
    intro front hfront
    rcases List.prefix_cons_iff.mp hfront with rfl | ⟨rest, rfl, hrest⟩
    · exact Nat.le_refl _
    · rw [List.count_cons_of_ne (by decide), List.count_cons_self]
      exact Nat.le_succ_of_le (h rest hrest)
  refine held_close hopened ?_
  rw [List.count_cons_of_ne (by decide), List.count_cons_self]
  exact Nat.lt_succ_of_le (h text List.prefix_rfl)

/-- The cursor is at the end, and every bracket that is closed there was open. -/
structure ClosesInOrder (s : Editor) : Prop where
  counts : s.CountsBrackets
  atEnd : s.AtEnd
  held : Held (brackets s.buffer.chars)

theorem held_plain : Held [] := by
  intro front hfront
  rw [List.prefix_nil.mp hfront]
  exact Nat.le_refl _

theorem closesInOrder_reset (s : Editor) : s.reset.ClosesInOrder :=
  ⟨countsBrackets_reset s, atEnd_reset s, held_plain⟩

theorem ClosesInOrder.held_insertBracket (h : s.ClosesInOrder) :
    Held (brackets s.insertBracket.buffer.chars) := by
  rw [brackets_insertBracket_atEnd h.atEnd]
  split
  · next hcloses =>
    refine held_close h.held ?_
    have hcount := counted_brackets.mpr h.counts
    rw [hcloses] at hcount
    exact Nat.lt_of_lt_of_eq (Nat.lt_succ_self _) hcount.symm
  · exact held_open h.held

theorem ClosesInOrder.held_applyFunction (h : s.ClosesInOrder) (key : FunctionKey) :
    Held (brackets (s.applyFunction key).buffer.chars) := by
  rcases brackets_applyFunction (s := s) key with hsame | hpair
  · rw [hsame]
    exact h.held
  · rw [hpair]
    exact held_enclose h.held

theorem closesInOrder_perform (h : s.ClosesInOrder) {event : Event}
    (haccepts : s.layout.accepts s.mode event = true) (hkept : event.deletes = false)
    (hstays : event.moves = false) : (s.perform event).ClosesInOrder := by
  refine ⟨countsBrackets_perform h.counts haccepts hkept, atEnd_perform h.atEnd hkept hstays, ?_⟩
  by_cases hplain : event.isPlain = true
  · rw [(plainStep_perform haccepts hplain).brackets]
    exact h.held
  · cases event with
    | clear | modeToggle => exact held_plain
    | bracket => exact h.held_insertBracket
    | function key => exact h.held_applyFunction key
    | backspace | delete => cases hkept
    | digit | operator | point | percent | signToggle | move => exact absurd rfl hplain

theorem closesInOrder_settle (h : s.ClosesInOrder) : s.settle.ClosesInOrder := by
  have hcounts := countsBrackets_settle h.counts
  rcases settle_cases s with ⟨v, hfinite, hs⟩ | ⟨overlay, hs⟩
  · rw [hs] at hcounts ⊢
    refine ⟨hcounts, rfl, ?_⟩
    show Held (brackets (s.fill (Numeral.display v)).buffer.chars)
    rw [brackets_display hfinite]
    exact held_plain
  · rw [hs] at hcounts ⊢
    exact ⟨hcounts, h.atEnd, h.held⟩

theorem closesInOrder_operate (h : s.ClosesInOrder) {operation : Operation}
    (hkept : ∀ event, operation = .event event → event.deletes = false)
    (hstays : ∀ event, operation = .event event → event.moves = false) :
    (s.operate operation).ClosesInOrder := by
  cases operation with
  | withMode | withLayout => exact ⟨h.counts, h.atEnd, h.held⟩
  | evaluate => exact closesInOrder_settle h
  | event event =>
    exact apply_keeps closesInOrder_reset
      (fun s haccepts hs => closesInOrder_perform hs haccepts (hkept event rfl) (hstays event rfl)) h

/-! ## Whole runs -/

/-- **The bracket key counts the open brackets.** As long as nothing is deleted, there is one open
bracket more than closed ones where the bracket key closes next, and as many where it opens. If the
cursor is not moved either, no bracket is closed before it is opened. -/
theorem brackets_run (mode : Mode) (layout : Layout) (operations : List Operation)
    (hkept : ∀ event, .event event ∈ operations → event.deletes = false) :
    let s := ({ initial with mode, layout } : Editor).run operations
    (s.buffer.chars.count '(' : Int) - s.buffer.chars.count ')' =
        (if s.bracketCloses then 1 else 0) ∧
      ((∀ event, .event event ∈ operations → event.moves = false) →
        ∀ front, front <+: s.buffer.chars → front.count ')' ≤ front.count '(') := by
  intro s
  have hcounts : s.CountsBrackets :=
    run_keeps (P := CountsBrackets) (fun operation hmem s hs =>
      countsBrackets_operate hs fun event he => hkept event (he ▸ hmem)) rfl
  refine ⟨?_, fun hstays => ?_⟩
  · unfold CountsBrackets Counted at hcounts
    cases hcloses : s.bracketCloses <;> rw [hcloses] at hcounts <;> simp at hcounts ⊢ <;> omega
  · have hinitial : ({ initial with mode, layout } : Editor).ClosesInOrder :=
      closesInOrder_reset { initial with mode, layout }
    have hordered : s.ClosesInOrder :=
      run_keeps (P := ClosesInOrder) (fun operation hmem s hs => closesInOrder_operate hs
        (fun event he => hkept event (he ▸ hmem)) (fun event he => hstays event (he ▸ hmem))) hinitial
    exact held_of_brackets hordered.held

/-- A bracket stays open when a function is put around it. -/
theorem bracket_open_in_argument :
    let operations : List Operation := [.event .bracket, .event (.digit '2'),
      .withMode .scientific, .event (.function .sin)]
    let s := ({ initial with mode := .basic, layout := .classic } : Editor).run operations
    (∀ event, .event event ∈ operations → event.deletes = false) ∧
      (∀ event, .event event ∈ operations → event.moves = false) ∧
      s.buffer.chars = "sin((2)".toList ∧ s.bracketCloses = true ∧
      (s.buffer.chars.count '(' : Int) - s.buffer.chars.count ')' = 1 ∧
      ∀ front, front <+: s.buffer.chars → front.count ')' ≤ front.count '(' := by
  intro operations s
  have hkept : ∀ event, .event event ∈ operations → event.deletes = false := by
    simp [operations, Event.deletes]
  have hstays : ∀ event, .event event ∈ operations → event.moves = false := by
    simp [operations, Event.moves]
  have hcloses : s.bracketCloses = true := by decide
  obtain ⟨hcount, hordered⟩ := brackets_run .basic .classic operations hkept
  refine ⟨hkept, hstays, by decide, hcloses, ?_, hordered hstays⟩
  rw [hcount, hcloses]
  rfl

end Editor

end PocketCalculator
