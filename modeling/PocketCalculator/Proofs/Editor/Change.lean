import PocketCalculator.Proofs.Editor.Around
import PocketCalculator.Proofs.Editor.Settled

/-!
# What an edit changes

An edit takes a part of the entry out and puts another text in its place (`Buffer.Replaces`). For most
keys both are made of digits, points, percent signs and operators alone (`plainStep_perform`); the
others are the bracket key (`replaces_insertBracket`), deletions, function keys and those that empty
the entry. What edits keep of the characters of an entry is proved from this.
-/

namespace PocketCalculator

/-- The event's key puts in numbers and operators only, or moves the cursor. -/
def Event.isPlain : Event → Bool
  | .digit _ | .operator _ | .point | .percent | .signToggle | .move _ => true
  | _ => false

namespace Buffer

/-- A part of the text gives way to another. Where nothing would be left there is zero. -/
def Replaces (b : Buffer) (old new : List Char) (b' : Buffer) : Prop :=
  ∃ left right, b.chars = left ++ old ++ right ∧ b' = ofChars (left ++ new ++ right)

theorem Replaces.refl (b : Buffer) : b.Replaces [] [] b :=
  ⟨b.chars, [], by simp, by simp⟩

theorem Replaces.all (b : Buffer) (text : List Char) : b.Replaces b.chars text (ofChars text) :=
  ⟨[], [], by simp, by simp⟩

theorem Replaces.splice (b : Buffer) (start stop : Nat) (text : List Char) :
    b.Replaces ((b.chars.take (min stop b.length)).drop (min start (min stop b.length))) text
      (b.splice start stop text).1 := by
  refine ⟨b.chars.take (min start (min stop b.length)), b.chars.drop (min stop b.length), ?_, rfl⟩
  generalize hstart : min start (min stop b.length) = first
  have hle : first ≤ min stop b.length := hstart ▸ Nat.min_le_right ..
  calc b.chars = b.chars.take (min stop b.length) ++ b.chars.drop (min stop b.length) :=
        (List.take_append_drop ..).symm
    _ = _ := by
        conv_lhs => rw [← List.take_append_drop first (b.chars.take (min stop b.length)),
          List.take_take, Nat.min_eq_left hle]

theorem Replaces.insert (b : Buffer) (pos : Nat) (text : List Char) :
    b.Replaces [] text (b.insert pos text).1 := by
  have h := Replaces.splice b pos pos text
  rwa [← Nat.min_assoc, Nat.min_self, List.drop_of_length_le (List.length_take_le ..)] at h

/-- What holds of the characters of the text and of those that come in holds of all. -/
theorem Replaces.forall_mem {P : Char → Prop} {b b' : Buffer} {old new : List Char}
    (h : b.Replaces old new b') (hb : ∀ c ∈ b.chars, P c) (hnew : ∀ c ∈ new, P c) (hzero : P '0') :
    ∀ c ∈ b'.chars, P c := by
  obtain ⟨left, right, hsplit, rfl⟩ := h
  have hall : ∀ c ∈ left ++ new ++ right, P c := by
    rw [hsplit] at hb
    intro c hc
    simp only [List.mem_append] at hb hc
    rcases hc with (hc | hc) | hc
    · exact hb c (.inl (.inl hc))
    · exact hnew c hc
    · exact hb c (.inr hc)
  by_cases hnil : left ++ new ++ right = []
  · rw [hnil]
    simpa [zero] using hzero
  · rwa [chars_ofChars hnil]

end Buffer

namespace Editor

variable {s : Editor}

/-! ## Events and evaluations -/

/-- What an empty entry has, and what the edit of an event keeps, is kept by the event. -/
theorem apply_keeps {P : Editor → Prop} {event : Event} (hreset : ∀ s : Editor, P s.reset)
    (hperform : ∀ s : Editor, s.layout.accepts s.mode event = true → P s → P (s.perform event))
    (h : P s) : P (s.apply event) := by
  unfold apply
  split
  · next haccepts =>
    dsimp only
    split
    · exact h
    · unfold edit
      split
      · exact hperform s.reset haccepts (hreset s)
      · exact hperform s haccepts h
  · exact h

/-- Evaluating an entry puts a number in its place, or lays something over it. -/
theorem settle_cases (s : Editor) :
    (∃ v, Float.isFinite v = true ∧
      s.settle = { s.fill (Numeral.display v) with bracketCloses := false, overlay := none }) ∨
    ∃ overlay, s.settle = { s with overlay := some overlay } := by
  cases hresult : s.evaluate with
  | number v => exact .inl ⟨v, isFinite_of_evaluate hresult, by rw [settle, hresult]; rfl⟩
  | literal text => exact .inr ⟨.literal text, by rw [settle, hresult]; rfl⟩
  | error cause => exact .inr ⟨.error cause, by rw [settle, hresult]; rfl⟩

/-! ## Keys that put in numbers and operators -/

/-- A digit, a point, a percent sign or an operator. -/
def isPlain (c : Char) : Bool :=
  isNumberChar c || c == '%' || Glyph.isOperator c

/-- Only such characters are taken out and put in, and what the bracket key does next stays. -/
structure PlainStep (s t : Editor) : Prop where
  buffer : ∃ old new, s.buffer.Replaces old new t.buffer ∧ old.all isPlain = true ∧
    new.all isPlain = true
  bracketCloses : t.bracketCloses = s.bracketCloses

theorem PlainStep.refl (s : Editor) : s.PlainStep s :=
  ⟨⟨[], [], .refl _, rfl, rfl⟩, rfl⟩

theorem plainStep_insert {text : List Char} (h : text.all isPlain = true) :
    s.PlainStep (s.insert text) :=
  ⟨⟨[], text, .insert .., rfl, h⟩, rfl⟩

theorem plainStep_fill (hzero : s.buffer.isZero = true) {text : List Char}
    (h : text.all isPlain = true) : s.PlainStep (s.fill text) := by
  refine ⟨⟨s.buffer.chars, text, .all .., ?_, h⟩, rfl⟩
  rw [beq_iff_eq.mp hzero]
  decide

theorem isOperator_of_isNumberChar {c : Char} (h : isNumberChar c = true) :
    Glyph.isOperator c = false := by
  rw [isNumberChar, Bool.or_eq_true, beq_iff_eq] at h
  rcases h with hdigit | rfl
  · exact isOperator_of_isDigit hdigit
  · rfl

theorem isPlain_of_isDigit {c : Char} (h : c.isDigit = true) : isPlain c = true := by
  rw [isPlain, isNumberChar, h]
  rfl

theorem all_isPlain_text (d : Decimal) : d.text.all isPlain = true := by
  refine List.all_eq_true.mpr fun c hc => ?_
  have hnumeric : isNumberChar c = true := Decimal.isNumeric_of_mem_text hc
  rw [isPlain, hnumeric]
  rfl

theorem plainStep_insertDigit {c : Char} (hc : c.isDigit = true) : s.PlainStep (s.insertDigit c) := by
  have hdigit : [c].all isPlain = true := by simp [isPlain_of_isDigit hc]
  have hfactor : ['*', c].all isPlain = true := by
    rw [List.all_cons, hdigit]
    rfl
  unfold insertDigit
  split
  · next hzero => exact plainStep_fill hzero hdigit
  · split
    · exact plainStep_insert hfactor
    · exact plainStep_insert hdigit

theorem plainStep_insertConstant (constant : Constant) :
    s.PlainStep (s.insertConstant constant) := by
  have htext : constant.expanded.all isPlain = true := all_isPlain_text _
  have hfactor : ('*' :: constant.expanded).all isPlain = true := by
    rw [List.all_cons, htext]
    rfl
  unfold insertConstant
  dsimp only
  split
  · next hzero => exact plainStep_fill hzero htext
  · split
    · exact .refl s
    · split
      · exact plainStep_insert hfactor
      · split
        · exact .refl s
        · exact plainStep_insert htext

theorem plainStep_insertOperator (c : Char) : s.PlainStep (s.insertOperator c) := by
  unfold insertOperator
  dsimp only
  split
  · next hoperator =>
    obtain ⟨before, run, after, hsplit, htake, hdrop, hle, hstop, hrun⟩ :=
      exists_around_run s.buffer Glyph.isOperator s.cursor
    have hplain : ∀ d, Glyph.isOperator d = true → isPlain d = true := by
      intro d hd
      rw [isPlain, hd, Bool.or_true]
    refine ⟨⟨run, [Glyph.canonical c], ⟨before, after, hsplit, ?_⟩, ?_, ?_⟩, rfl⟩
    · show Buffer.ofChars _ = _
      rw [Buffer.operatorsStart, Buffer.operatorsStop, Nat.min_eq_left hstop, Nat.min_eq_left hle,
        htake, hdrop]
    · exact List.all_eq_true.mpr fun d hd => hplain d (hrun.all d hd)
    · simp [hplain _ hoperator]
  · exact .refl s

theorem plainStep_insertPoint : s.PlainStep s.insertPoint := by
  unfold insertPoint
  split
  · exact .refl s
  · split
    · next hzero => exact plainStep_fill hzero rfl
    · split
      · exact plainStep_insert rfl
      · split <;> exact plainStep_insert rfl

theorem plainStep_insertPercent : s.PlainStep s.insertPercent := by
  unfold insertPercent
  split
  · exact plainStep_insert rfl
  · exact .refl s

theorem plainStep_toggleSign : s.PlainStep s.toggleSign := by
  unfold toggleSign
  split
  · exact .refl s
  · split
    · exact .refl s
    · next start hnumber =>
      split
      · next hsign =>
        -- What is taken out is the minus in front of the number.
        rw [Bool.and_eq_true, beq_iff_eq] at hsign
        obtain ⟨front, hfront⟩ := take_of_charBefore? hsign.1
        have hsplit : s.buffer.chars = front ++ ['-'] ++ s.buffer.chars.drop start := by
          rw [← hfront, List.take_append_drop]
        have hstart : start = front.length + 1 := by
          have hlength := congrArg List.length hfront
          have hle : start ≤ s.buffer.chars.length := trailingNumber?_le hnumber
          rwa [List.length_take, Nat.min_eq_left hle, List.length_append] at hlength
        subst hstart
        exact ⟨⟨['-'], [], ⟨front, _, hsplit, Buffer.splice_parts hsplit []⟩, rfl, rfl⟩, rfl⟩
      · exact ⟨⟨[], ['-'], .insert .., rfl, rfl⟩, rfl⟩

theorem plainStep_perform {event : Event} (haccepts : s.layout.accepts s.mode event = true)
    (hplain : event.isPlain = true) : s.PlainStep (s.perform event) := by
  cases event with
  | digit c =>
    dsimp only [perform]
    split
    · exact plainStep_insertConstant _
    · next hnone =>
      unfold Layout.accepts at haccepts
      simp only [hnone] at haccepts
      exact plainStep_insertDigit haccepts
  | operator c => exact plainStep_insertOperator c
  | point => exact plainStep_insertPoint
  | percent => exact plainStep_insertPercent
  | signToggle => exact plainStep_toggleSign
  | move direction => exact ⟨⟨[], [], .refl _, rfl, rfl⟩, rfl⟩
  | clear | backspace | delete | bracket | function | modeToggle => cases hplain

/-! ## The bracket key -/

/-- The bracket key puts in one bracket, and a factor before it where it opens one. -/
theorem replaces_insertBracket (s : Editor) :
    ∃ old factor, s.buffer.Replaces old (factor ++ [if s.bracketCloses then ')' else '('])
      s.insertBracket.buffer ∧ old.all isPlain = true ∧ factor.all isPlain = true := by
  unfold insertBracket
  by_cases hcloses : s.bracketCloses = true
  · rw [if_pos hcloses, if_pos hcloses]
    exact ⟨[], [], .insert .., rfl, rfl⟩
  · rw [if_neg hcloses, if_neg hcloses]
    dsimp only
    split
    · next hzero =>
      refine ⟨s.buffer.chars, [], .all .., ?_, rfl⟩
      rw [beq_iff_eq.mp hzero]
      decide
    · split
      · exact ⟨[], ['*'], .insert .., rfl, rfl⟩
      · exact ⟨[], [], .insert .., rfl, rfl⟩

theorem bracketCloses_insertBracket (s : Editor) :
    s.insertBracket.bracketCloses = !s.bracketCloses := by
  unfold insertBracket
  cases s.bracketCloses <;> rfl

/-! ## Numbers on the display -/

/-- A number on the display is made of such characters too. -/
theorem all_isPlain_display {v : Float} (hfinite : v.isFinite = true) :
    (Numeral.display v).all isPlain = true := by
  cases hzero : v == 0.0 with
  | true =>
    rw [Numeral.display, hzero]
    rfl
  | false =>
    obtain ⟨sign, mantissa, exponent, hv⟩ := Binary.exists_hasParts hfinite hzero
    rw [Evaluation.display_of_hasParts hv hzero]
    cases sign with
    | negative =>
      rw [List.all_cons, all_isPlain_text]
      rfl
    | positive => exact all_isPlain_text _

end Editor

end PocketCalculator
