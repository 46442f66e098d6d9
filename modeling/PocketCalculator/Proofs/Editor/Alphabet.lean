import PocketCalculator.Proofs.Editor.Change
import PocketCalculator.Proofs.Editor.Safety
import PocketCalculator.Proofs.Token.Segments

/-!
# The characters of an entry

Keys and results put in digits, a few signs and the letters of function names, and no event puts in
anything else (`isEntryText_run`). All of these are in their ASCII spelling, and each sign is a token
of its own, so what an entry can be refused for when it is read is little: an operand has one point
at most, so only a point without digits is no number, and the letters of names can be torn apart
(`refusal_of_entry`).
-/

namespace PocketCalculator.Editor

open Buffer (Formed meet_parts before_append_operand pointsBefore)
open Text (IsRun)
open Token (isNumeric IsSymbol classify pieces segments charKind)

/-- A character that keys and results put in. -/
def isEntryChar (c : Char) : Bool :=
  c.isDigit || ".%()+-*/^|√".toList.contains c || "sincostanlnlog".toList.contains c

def IsEntryText (text : List Char) : Prop :=
  ∀ c ∈ text, isEntryChar c = true

/-! ## The alphabet -/

theorem isEntryChar_cases {c : Char} (h : isEntryChar c = true) :
    c.isDigit = true ∨ c ∈ ".%()+-*/^|√".toList ∨ c ∈ "sincostanlnlog".toList := by
  rw [isEntryChar, Bool.or_eq_true, Bool.or_eq_true, List.contains_iff_mem,
    List.contains_iff_mem, or_assoc] at h
  exact h

theorem isEntryChar_of_isPlain {c : Char} (h : isPlain c = true) : isEntryChar c = true := by
  simp only [isPlain, isNumberChar, Glyph.isOperator, Bool.or_eq_true, beq_iff_eq] at h
  by_cases hdigit : c.isDigit = true
  · rw [isEntryChar, hdigit]
    rfl
  · rcases h with ((hdigit' | rfl) | rfl) | (((rfl | rfl) | rfl) | rfl) | rfl
    · exact absurd hdigit' hdigit
    all_goals decide

theorem isEntryText_of_plain {text : List Char} (h : text.all isPlain = true) : IsEntryText text :=
  fun c hc => isEntryChar_of_isPlain (List.all_eq_true.mp h c hc)

theorem isEntryText_append {text more : List Char} (htext : IsEntryText text)
    (hmore : IsEntryText more) : IsEntryText (text ++ more) :=
  fun c hc => (List.mem_append.mp hc).elim (htext c) (hmore c)

theorem isEntryText_wrap (key : FunctionKey) {text : List Char} (h : IsEntryText text) :
    IsEntryText (key.wrap text) := by
  have hopening : IsEntryText key.opening := List.all_eq_true.mp (by cases key <;> decide)
  have hclosing : IsEntryText key.closing := List.all_eq_true.mp (by cases key <;> decide)
  rw [key.wrap_eq]
  exact isEntryText_append (isEntryText_append hopening h) hclosing

/-- All of them are in their ASCII spelling. -/
theorem canonicalText_of_entry {text : List Char} (h : IsEntryText text) :
    Glyph.canonicalText text = text := by
  refine Glyph.canonicalText_of_forall fun c hc => ?_
  have hlisted : ∀ {list : List Char}, (list.all fun d => Glyph.canonical d == d) = true →
      c ∈ list → Glyph.canonical c = c :=
    fun hlist hmem => beq_iff_eq.mp (List.all_eq_true.mp hlist c hmem)
  rcases isEntryChar_cases (h c hc) with hdigit | hsign | hletter
  · exact Glyph.canonical_of_isDigit hdigit
  · exact hlisted (by decide) hsign
  · exact hlisted (by decide) hletter

/-! ## Nothing else is put in -/

variable {s t : Editor}

theorem isEntryText_replaces {b b' : Buffer} {old new : List Char} (h : b.Replaces old new b')
    (hb : IsEntryText b.chars) (hnew : IsEntryText new) : IsEntryText b'.chars :=
  h.forall_mem hb hnew (by decide)

theorem isEntryText_delete (h : IsEntryText s.buffer.chars) (start stop : Nat) :
    IsEntryText (s.delete start stop).buffer.chars := by
  unfold delete
  split
  · dsimp only
    split
    · exact h
    · exact isEntryText_replaces (.splice s.buffer start stop []) h nofun
  · exact h

theorem isEntryText_insertBracket (h : IsEntryText s.buffer.chars) :
    IsEntryText s.insertBracket.buffer.chars := by
  obtain ⟨old, factor, hreplaces, -, hfactor⟩ := replaces_insertBracket s
  refine isEntryText_replaces hreplaces h (isEntryText_append (isEntryText_of_plain hfactor) ?_)
  exact List.all_eq_true.mp (by cases s.bracketCloses <;> decide)

theorem isEntryText_applyFunction (h : IsEntryText s.buffer.chars) (key : FunctionKey) :
    IsEntryText (s.applyFunction key).buffer.chars := by
  unfold applyFunction
  split
  · exact h
  · exact isEntryText_replaces (.all ..) h (isEntryText_wrap key h)

theorem isEntryText_perform (h : IsEntryText s.buffer.chars) {event : Event}
    (haccepts : s.layout.accepts s.mode event = true) :
    IsEntryText (s.perform event).buffer.chars := by
  by_cases hplain : event.isPlain = true
  · obtain ⟨old, new, hreplaces, -, hnew⟩ := (plainStep_perform haccepts hplain).buffer
    exact isEntryText_replaces hreplaces h (isEntryText_of_plain hnew)
  · cases event with
    | clear | modeToggle => exact isEntryText_of_plain rfl
    | bracket => exact isEntryText_insertBracket h
    | function key => exact isEntryText_applyFunction h key
    | delete start stop => exact isEntryText_delete h start stop
    | backspace =>
      dsimp only [perform, backspace]
      split
      · exact isEntryText_delete h _ _
      · exact h
    | digit | operator | point | percent | signToggle | move => exact absurd rfl hplain

theorem isEntryText_settle (h : IsEntryText s.buffer.chars) :
    IsEntryText s.settle.buffer.chars := by
  rcases settle_cases s with ⟨v, hfinite, hs⟩ | ⟨overlay, hs⟩
  · rw [hs]
    exact isEntryText_replaces (.all s.buffer _) h (isEntryText_of_plain (all_isPlain_display hfinite))
  · rw [hs]
    exact h

theorem isEntryText_operate (h : IsEntryText s.buffer.chars) (operation : Operation) :
    IsEntryText (s.operate operation).buffer.chars := by
  cases operation with
  | withMode | withLayout => exact h
  | evaluate => exact isEntryText_settle h
  | event event =>
    exact apply_keeps (P := fun s => IsEntryText s.buffer.chars) (fun _ => isEntryText_of_plain rfl)
      (fun s haccepts hs => isEntryText_perform hs haccepts) h

theorem isEntryText_run (h : IsEntryText s.buffer.chars) (operations : List Operation) :
    IsEntryText (s.run operations).buffer.chars :=
  run_keeps (P := fun s => IsEntryText s.buffer.chars)
    (fun operation _ _ hs => isEntryText_operate hs operation) h

/-! ## Reading an entry -/

variable {text piece : List Char}

/-- A row of digits and points lies in one operand. -/
theorem count_point_of_formed {before row after : List Char} (h : Formed (before ++ row ++ after))
    (hrow : ∀ c ∈ row, isNumeric c = true) (hne : row ≠ []) : row.count '.' ≤ 1 := by
  have hpoints := (before_append_operand before
    (fun c hc => isOperator_of_isNumberChar (hrow c hc)) hne).1
  have hmeet := (meet_parts h).2.2
  omega

/-- Without digits and with one point at most, it is a point. -/
theorem eq_point_of_row (hrow : ∀ c ∈ piece, isNumeric c = true) (hne : piece ≠ [])
    (hdigits : piece.any Char.isDigit = false) (hpoints : piece.count '.' ≤ 1) : piece = ['.'] := by
  have hall : ∀ c ∈ piece, c = '.' := by
    intro c hc
    have hnumeric := hrow c hc
    have hdigit := List.any_eq_false.mp hdigits c hc
    rw [isNumeric, Bool.or_eq_true, beq_iff_eq] at hnumeric
    exact hnumeric.resolve_left hdigit
  have hreplicate := List.eq_replicate_iff.mpr ⟨rfl, hall⟩
  have hlength : piece.length = 1 := by
    rw [hreplicate, List.count_replicate_self] at hpoints
    have hpos := List.length_pos_iff.mpr hne
    omega
  rw [hreplicate, hlength]
  rfl

/-- Each sign of an entry that is not part of a number is a token. -/
theorem classify_symbol_of_entry {c : Char} (hentry : isEntryChar c = true) (hc : IsSymbol c) :
    ∃ token, classify [c] = .ok token := by
  rcases isEntryChar_cases hentry with hdigit | hsign | hletter
  · have hnumeric := hc.numeric
    rw [isNumeric, hdigit] at hnumeric
    cases hnumeric
  · have hsigns : ".%()+-*/^|√".toList.all
        (fun d => isNumeric d || (Token.symbols.lookup [d]).isSome) = true := by decide
    have hsome := List.all_eq_true.mp hsigns c hsign
    rw [hc.numeric, Bool.false_or] at hsome
    obtain ⟨token, htoken⟩ := Option.isSome_iff_exists.mp hsome
    refine ⟨token, ?_⟩
    rw [Token.classify_symbol hc, htoken]
    rfl
  · have hletters : "sincostanlnlog".toList.all Char.isAlpha = true := by decide
    exact absurd (List.all_eq_true.mp hletters c hletter) (ne_true_of_eq_false hc.alpha)

theorem charKind_beq_numeric : (fun c => charKind c == .numeric) = isNumeric := by
  funext c
  rw [Bool.eq_iff_iff, beq_iff_eq, Token.charKind_numeric_iff]

/-- What is wrong with a piece of an entry that is no token: it is a lone point, or an unknown
name. -/
theorem refusal_of_entry {cause : EvalError} (hformed : Formed text) (hentry : IsEntryText text)
    (hpiece : piece ∈ pieces text) (herror : classify piece = .error cause) :
    (cause = .invalidNumber "." ∧ ∃ before after, text = before ++ ['.'] ++ after ∧
      IsRun isNumeric before ['.'] after) ∨ ∃ name, cause = .unknownIdentifier name := by
  obtain ⟨hsegment, hblank⟩ := List.mem_filter.mp hpiece
  obtain ⟨before, after, rfl, hkind⟩ := Token.isRun_of_mem_segments hsegment
  have hne : piece ≠ [] := List.ne_nil_of_mem_splitBy hsegment
  rcases hkind with ⟨c, rfl, hc⟩ | ⟨kind, hkind, hrun⟩
  · obtain ⟨token, htoken⟩ := classify_symbol_of_entry (hentry c (by simp)) hc
    rw [htoken] at herror
    cases herror
  · have hall : ∀ c ∈ piece, charKind c = kind := fun c hc => beq_iff_eq.mp (hrun.all c hc)
    cases kind with
    | blank =>
      have hblanks : piece.all Text.isBlank = true :=
        List.all_eq_true.mpr fun c hc => Token.charKind_blank_iff.mp (hall c hc)
      rw [hblanks] at hblank
      cases hblank
    | numeric =>
      have hrow : ∀ c ∈ piece, isNumeric c = true :=
        fun c hc => Token.charKind_numeric_iff.mp (hall c hc)
      have hpoints := count_point_of_formed hformed hrow hne
      rw [classify, if_pos (List.all_eq_true.mpr hrow)] at herror
      split at herror
      · cases herror
      · next hnumber =>
        have hdigits : piece.any Char.isDigit = false :=
          Bool.eq_false_iff.mpr fun hdigit => hnumber ⟨hdigit, hpoints⟩
        obtain rfl := eq_point_of_row hrow hne hdigits hpoints
        rw [charKind_beq_numeric] at hrun
        exact .inl ⟨(Except.error.inj herror).symm, before, after, rfl, hrun⟩
    | letter =>
      have hname : ∀ c ∈ piece, c.isAlpha = true :=
        fun c hc => Token.charKind_letter_iff.mp (hall c hc)
      rw [Token.classify_name hne hname] at herror
      cases hlookup : Token.names.lookup piece with
      | none =>
        rw [hlookup] at herror
        exact .inr ⟨_, (Except.error.inj herror).symm⟩
      | some token =>
        rw [hlookup] at herror
        cases herror
    | symbol => exact absurd rfl hkind

/-! ## Entries of runs -/

/-- **What is keyed in can be read**, up to names. At every point of every run the entry is in ASCII
spelling and made of digits, signs and letters of function names. It is a list of tokens unless it
has a point without digits, or letters that are no name. -/
theorem entry_readable (mode : Mode) (layout : Layout) (operations : List Operation) :
    let text := (({ initial with mode, layout } : Editor).run operations).buffer.chars
    Glyph.canonicalText text = text ∧ (∀ c ∈ text, isEntryChar c = true) ∧
      ((∃ list, Token.tokens text = .ok list) ∨
        (Token.tokens text = .error (.invalidNumber ".") ∧
          ∃ before after, text = before ++ ['.'] ++ after ∧ IsRun isNumeric before ['.'] after) ∨
        ∃ name, Token.tokens text = .error (.unknownIdentifier name)) := by
  intro text
  have hentry : IsEntryText text := isEntryText_run (isEntryText_of_plain rfl) operations
  have hformed : Formed text := isWellFormed_run (s := { initial with mode, layout }) rfl operations
  refine ⟨canonicalText_of_entry hentry, hentry, ?_⟩
  cases htokens : Token.tokens text with
  | ok list => exact .inl ⟨list, rfl⟩
  | error cause =>
    obtain ⟨before, piece, after, hpieces, -, herror⟩ := Token.tokens_eq_error_iff.mp htokens
    have hpiece : piece ∈ pieces text := by
      rw [hpieces]
      exact List.mem_append_cons_self
    rcases refusal_of_entry hformed hentry hpiece herror with ⟨rfl, hpoint⟩ | ⟨name, rfl⟩
    · exact .inr (.inl ⟨rfl, hpoint⟩)
    · exact .inr (.inr ⟨name, rfl⟩)

end PocketCalculator.Editor
