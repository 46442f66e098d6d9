import PocketCalculator.Proofs.Editor.Entry
import PocketCalculator.Proofs.Session.Refinement

/-!
# Typing an expression

An expression of numbers, percent signs, operators and brackets that are not nested can be typed as it
is written: no key on the way puts in more or less than its character (`typing_shows`). Only a number
at the beginning may not have a zero in front, since a digit takes the place of a lone zero. An
expression is a row of operands with operators between them, inside a bracket and outside of it, so it
is enough that typing goes through an operand (`TypesAs`) and on over an operator (`typesAs_row`).
-/

namespace PocketCalculator

/-! ## Expressions that can be typed -/

namespace Typing

/-- Digits, which a point and more digits may follow. -/
inductive IsNumeral : List Char → Prop where
  | whole {digits : List Char} (ne : digits ≠ []) (digit : ∀ c ∈ digits, c.isDigit = true) :
    IsNumeral digits
  | point {digits fraction : List Char} (ne : digits ≠ []) (digit : ∀ c ∈ digits, c.isDigit = true)
    (fractionDigit : ∀ c ∈ fraction, c.isDigit = true) : IsNumeral (digits ++ '.' :: fraction)

/-- A number, or a percentage of one that does not end with a point. -/
inductive IsItem : List Char → Prop where
  | number {number : List Char} (h : IsNumeral number) : IsItem number
  | percent {number : List Char} (h : IsNumeral number)
    (last : ∀ c ∈ number.getLast?, c.isDigit = true) : IsItem (number ++ ['%'])

/-- Operands with an operator between each two, in any of its glyphs. -/
inductive IsRow (IsOperand : List Char → Prop) : List Char → Prop where
  | one {operand : List Char} (h : IsOperand operand) : IsRow IsOperand operand
  | more {row operand : List Char} {glyph : Char} (h : IsRow IsOperand row)
    (operator : Glyph.isOperator (Glyph.canonical glyph) = true) (last : IsOperand operand) :
    IsRow IsOperand (row ++ glyph :: operand)

/-- A number or a percentage, or a row of them in brackets, which may be a percentage itself. -/
inductive IsTerm : List Char → Prop where
  | item {item : List Char} (h : IsItem item) : IsTerm item
  | group {row : List Char} (h : IsRow IsItem row) : IsTerm ('(' :: row ++ [')'])
  | groupPercent {row : List Char} (h : IsRow IsItem row) : IsTerm ('(' :: row ++ [')', '%'])

/-- The text begins with a zero before another digit. -/
def HasLeadingZero (text : List Char) : Prop :=
  ∃ c rest, text = '0' :: c :: rest ∧ c.isDigit = true

structure IsExpression (text : List Char) : Prop where
  row : IsRow IsTerm text
  leadingZero : ¬ HasLeadingZero text

/-! ## Characters of expressions -/

variable {text : List Char}

theorem HasLeadingZero.append (h : HasLeadingZero text) (more : List Char) :
    HasLeadingZero (text ++ more) := by
  obtain ⟨c, rest, rfl, hc⟩ := h
  exact ⟨c, rest ++ more, rfl, hc⟩

/-- No glyph of an operator is a digit. -/
theorem hasLeadingZero_canonicalText (h : HasLeadingZero (Glyph.canonicalText text)) :
    HasLeadingZero text := by
  obtain ⟨c, rest, htext, hc⟩ := h
  rcases text with - | ⟨first, - | ⟨second, text⟩⟩
  · cases htext
  · cases (List.cons.inj htext).2
  · obtain ⟨hfirst, htail⟩ := List.cons.inj htext
    obtain ⟨rfl, -⟩ := List.cons.inj htail
    have hzero : first = '0' := by
      rw [← Glyph.canonical_eq_of_isDigit (c := first) (by rw [hfirst]; decide), hfirst]
    exact ⟨second, text, by rw [hzero], Glyph.canonical_eq_of_isDigit hc ▸ hc⟩

theorem IsNumeral.chars {number : List Char} (h : IsNumeral number) :
    number ≠ [] ∧ ∀ c ∈ number, c.isDigit = true ∨ c = '.' := by
  cases h with
  | whole ne digit => exact ⟨ne, fun c hc => .inl (digit c hc)⟩
  | point ne digit fractionDigit =>
    refine ⟨List.append_ne_nil_of_left_ne_nil ne _, fun c hc => ?_⟩
    rcases List.mem_append.mp hc with hc | hc
    · exact .inl (digit c hc)
    · rcases List.mem_cons.mp hc with hc | hc
      · exact .inr hc
      · exact .inl (fractionDigit c hc)

theorem IsItem.chars {item : List Char} (h : IsItem item) :
    item ≠ [] ∧ ∀ c ∈ item, c.isDigit = true ∨ c = '.' ∨ c = '%' := by
  cases h with
  | number h => exact ⟨h.chars.1, fun c hc => (h.chars.2 c hc).imp_right .inl⟩
  | percent h last =>
    refine ⟨List.concat_ne_nil _ _, fun c hc => ?_⟩
    rcases List.mem_append.mp hc with hc | hc
    · exact (h.chars.2 c hc).imp_right .inl
    · exact .inr (.inr (List.mem_singleton.mp hc))

theorem IsItem.canonicalText {item : List Char} (h : IsItem item) :
    Glyph.canonicalText item = item := by
  refine Glyph.canonicalText_of_forall fun c hc => ?_
  rcases h.chars.2 c hc with hdigit | rfl | rfl
  · exact Glyph.canonical_of_isDigit hdigit
  · rfl
  · rfl

end Typing

/-! ## Typing -/

namespace Editor

open Buffer (pointsBefore before_operand before_operator before_append_operand)
open Typing

/-- The key of a character. -/
def type (s : Editor) (c : Char) : Editor :=
  ((Key.charAction? c).map s.act).getD s

def typeAll (s : Editor) (text : List Char) : Editor :=
  text.foldl type s

/-- The editor shows the text as it was keyed in, and the text is well formed. -/
structure Shows (layout : Layout) (s : Editor) (text : List Char) (opened : Bool) : Prop where
  eq : s = entry layout text opened
  formed : s.buffer.isWellFormed = true

variable {layout : Layout} {s : Editor} {text front word : List Char} {opened : Bool}
  {c d : Char}

theorem typeAll_append (s : Editor) (text more : List Char) :
    s.typeAll (text ++ more) = (s.typeAll text).typeAll more :=
  List.foldl_append

/-! ### Keys -/

/-- A key does what its event does, since the check of the editor lets it through. -/
theorem Shows.key (h : Shows layout s text opened) {event : Event} {text' : List Char}
    {opened' : Bool} (haction : Key.charAction? c = some (.edit event))
    (haccepts : layout.accepts .basic event = true) (hchecks : event.checksItself = true)
    (hperform : (entry layout text opened).perform event = entry layout text' opened') :
    Shows layout (s.type c) text' opened' := by
  obtain ⟨rfl, hformed⟩ := h
  obtain ⟨happly, hnext⟩ := apply_of_formed hformed rfl haccepts hchecks
  have htype : (entry layout text opened).type c = entry layout text' opened' := by
    rw [type, haction, ← hperform, ← happly]
    rfl
  rw [htype]
  rw [hperform] at hnext
  exact ⟨rfl, hnext⟩

theorem charAction?_digit (hc : c.isDigit = true) :
    Key.charAction? c = some (.edit (.digit c)) := by
  unfold Key.charAction?
  rw [Glyph.canonical_of_isDigit hc]
  split
  · exact absurd hc (by decide)
  · exact absurd hc (by decide)
  · exact absurd hc (by decide)
  · exact absurd hc (by decide)
  · exact absurd hc (by decide)
  · rw [Action.ofChar?, hc]
    rfl

theorem charAction?_operator (hc : Glyph.isOperator (Glyph.canonical c) = true) :
    Key.charAction? c = some (.edit (.operator (Glyph.canonical c))) := by
  unfold Key.charAction?
  generalize Glyph.canonical c = operator at hc
  simp only [Glyph.isOperator, Bool.or_eq_true, beq_iff_eq] at hc
  rcases hc with (((rfl | rfl) | rfl) | rfl) | rfl <;> rfl

theorem Shows.digit (h : Shows layout s text opened) (hc : c.isDigit = true)
    (hzero : text ≠ ['0']) (htakes : TakesDigit text) :
    Shows layout (s.type c) (text ++ [c]) opened :=
  h.key (charAction?_digit hc) (accepts_digit _ _ hc) (checksItself_digit hc)
    (perform_digit hc hzero htakes)

theorem Shows.operator (h : Shows layout s (front ++ [d]) opened)
    (hc : Glyph.isOperator (Glyph.canonical c) = true) (hd : Glyph.isOperator d = false) :
    Shows layout (s.type c) (front ++ [d] ++ [Glyph.canonical c]) opened := by
  refine h.key (charAction?_operator hc) rfl rfl ?_
  rw [perform_operator (by rwa [Glyph.canonical_canonical]) hd, Glyph.canonical_canonical]

theorem Shows.point (h : Shows layout s (front ++ [d]) opened) (hd : d.isDigit = true)
    (hpoints : pointsBefore (front ++ [d]) = 0) :
    Shows layout (s.type '.') (front ++ [d] ++ ['.']) opened :=
  h.key rfl rfl rfl (perform_point hd hpoints)

theorem Shows.percent (h : Shows layout s (front ++ [d]) opened)
    (hd : d.isDigit = true ∨ d = ')') : Shows layout (s.type '%') (front ++ [d] ++ ['%']) opened :=
  h.key rfl rfl rfl (perform_percent hd)

theorem accepts_bracket (hlayout : layout ∈ Layout.all) :
    layout.accepts .basic .bracket = true := by
  have hall : Layout.all.all (fun layout => layout.accepts .basic .bracket) = true := by decide
  exact List.all_eq_true.mp hall layout hlayout

/-! ### Operands -/

theorem Shows.digits (h : Shows layout s text opened) {digits : List Char}
    (hdigits : ∀ c ∈ digits, c.isDigit = true)
    (htakes : TakesDigit text) (hzero : ¬ HasLeadingZero (text ++ digits)) :
    Shows layout (s.typeAll digits) (text ++ digits) opened := by
  induction digits generalizing s text with
  | nil => rwa [List.append_nil]
  | cons c digits ih =>
    rw [List.forall_mem_cons] at hdigits
    have hne : text ≠ ['0'] := by
      rintro rfl
      exact hzero ⟨c, digits, rfl, hdigits.1⟩
    have hnext : TakesDigit (text ++ [c]) := by
      rw [takesDigit_concat, isNumberChar, hdigits.1]
      exact .inl rfl
    rw [List.append_cons] at hzero ⊢
    exact ih (h.digit hdigits.1 hne htakes) hdigits.2 hnext hzero

/-- At the beginning of an operand: nothing of an operand is before it. -/
structure Begins (text : List Char) : Prop where
  takesOperand : TakesOperand text
  points : pointsBefore text = 0

/-- Behind an operand: an operator can follow. -/
def Ends (text : List Char) : Prop :=
  ∃ front c, text = front ++ [c] ∧ Glyph.isOperator c = false

theorem Ends.ne_nil (h : Ends text) : text ≠ [] := by
  obtain ⟨front, c, rfl, -⟩ := h
  exact List.concat_ne_nil c front

theorem begins_operator (hc : Glyph.isOperator c = true) (text : List Char) : Begins (text ++ [c]) :=
  ⟨takesOperand_concat.mpr (.inl hc), (before_operator text hc).1⟩

theorem Begins.openBracket (h : Begins text) : Begins (text ++ ['(']) := by
  refine ⟨takesOperand_concat.mpr (.inr rfl), ?_⟩
  rw [(before_operand text (by decide)).1, h.points]
  rfl

theorem Shows.numeral (h : Shows layout s text opened) (hbegins : Begins text)
    (hword : IsNumeral word) (hzero : ¬ HasLeadingZero (text ++ word)) :
    Shows layout (s.typeAll word) (text ++ word) opened := by
  have htakes := hbegins.takesOperand.takesDigit
  cases hword with
  | whole ne digit => exact h.digits digit htakes hzero
  | @point digits fraction ne digit fractionDigit =>
    have htext : text ++ (digits ++ '.' :: fraction) = text ++ digits ++ ['.'] ++ fraction := by
      simp
    rw [htext] at hzero ⊢
    have hdigits := h.digits digit htakes fun hleading => hzero ((hleading.append _).append _)
    -- No point is in the operand yet.
    have hpoints : pointsBefore (text ++ digits) = 0 := by
      rw [(before_append_operand text (fun c hc => isOperator_of_isDigit (digit c hc)) ne).1,
        hbegins.points, List.count_eq_zero.mpr fun hmem => absurd (digit _ hmem) (by decide)]
    have hpoint : Shows layout ((s.typeAll digits).type '.') (text ++ digits ++ ['.']) opened := by
      obtain ⟨front, d, rfl⟩ := (List.eq_nil_or_concat' digits).resolve_left ne
      rw [← List.append_assoc] at hdigits hpoints ⊢
      exact hdigits.point (digit d (by simp)) hpoints
    have htakesPoint : TakesDigit (text ++ digits ++ ['.']) := takesDigit_concat.mpr (.inl rfl)
    rw [typeAll_append]
    exact hpoint.digits fractionDigit htakesPoint hzero

/-- Typing the word goes through as it is at the beginning of an operand. -/
def TypesAs (layout : Layout) (opened : Bool) (word : List Char) : Prop :=
  ∀ {s text}, Shows layout s text opened → Begins text →
    ¬ HasLeadingZero (text ++ Glyph.canonicalText word) →
      Shows layout (s.typeAll word) (text ++ Glyph.canonicalText word) opened ∧
        Ends (text ++ Glyph.canonicalText word)

theorem typesAs_item (hword : IsItem word) : TypesAs layout opened word := by
  intro s text h hbegins hzero
  obtain ⟨hne, hchars⟩ := hword.chars
  rw [hword.canonicalText] at hzero ⊢
  constructor
  · cases hword with
    | number hnumber => exact h.numeral hbegins hnumber hzero
    | @percent number hnumber last =>
      rw [← List.append_assoc] at hzero ⊢
      have hshows := h.numeral hbegins hnumber fun hleading => hzero (hleading.append _)
      rw [typeAll_append]
      obtain ⟨front, d, rfl⟩ := (List.eq_nil_or_concat' number).resolve_left hnumber.chars.1
      rw [← List.append_assoc] at hshows ⊢
      exact hshows.percent (.inl (last d (by simp)))
  · obtain ⟨front, d, rfl⟩ := (List.eq_nil_or_concat' word).resolve_left hne
    refine ⟨text ++ front, d, (List.append_assoc ..).symm, ?_⟩
    rcases hchars d (by simp) with hdigit | rfl | rfl
    · exact isOperator_of_isDigit hdigit
    · rfl
    · rfl

/-- Typing goes on over the operators of a row. -/
theorem typesAs_row {IsOperand : List Char → Prop}
    (hoperand : ∀ operand, IsOperand operand → TypesAs layout opened operand)
    (hword : IsRow IsOperand word) : TypesAs layout opened word := by
  induction hword with
  | one h => exact hoperand _ h
  | @more row operand glyph hrow operator last ih =>
    intro s text h hbegins hzero
    have hcanonical : text ++ Glyph.canonicalText (row ++ glyph :: operand) =
        text ++ Glyph.canonicalText row ++ [Glyph.canonical glyph] ++
          Glyph.canonicalText operand := by
      simp [Glyph.canonicalText]
    rw [hcanonical] at hzero ⊢
    obtain ⟨hshows, hends⟩ := ih h hbegins fun hleading =>
      hzero ((hleading.append _).append _)
    obtain ⟨front, d, hfront, hd⟩ := hends
    rw [hfront] at hshows hzero ⊢
    rw [typeAll_append]
    exact hoperand operand last (hshows.operator operator hd) (begins_operator operator _) hzero

theorem Shows.openBracket (h : Shows layout s text false) (hlayout : layout ∈ Layout.all)
    (hbegins : Begins text) : Shows layout (s.type '(') (text ++ ['(']) true :=
  h.key rfl (accepts_bracket hlayout) rfl (perform_open hbegins.takesOperand)

theorem Shows.closeBracket (h : Shows layout s text true) (hlayout : layout ∈ Layout.all)
    (hne : text ≠ []) : Shows layout (s.type ')') (text ++ [')']) false :=
  h.key rfl (accepts_bracket hlayout) rfl (perform_close hne)

/-- A row in brackets goes through, whether or not more follows. -/
theorem Shows.group (h : Shows layout s text false) (hlayout : layout ∈ Layout.all)
    (hbegins : Begins text) {row : List Char} (hrow : IsRow IsItem row)
    (hzero : ¬ HasLeadingZero (text ++ ['('] ++ Glyph.canonicalText row)) :
    Shows layout (s.typeAll ('(' :: row ++ [')']))
      (text ++ ['('] ++ Glyph.canonicalText row ++ [')']) false := by
  obtain ⟨hshows, hends⟩ := typesAs_row (fun operand hitem => typesAs_item hitem) hrow
    (h.openBracket hlayout hbegins) hbegins.openBracket hzero
  rw [typeAll_append]
  exact hshows.closeBracket hlayout hends.ne_nil

theorem typesAs_term (hlayout : layout ∈ Layout.all) (hword : IsTerm word) :
    TypesAs layout false word := by
  intro s text h hbegins hzero
  cases hword with
  | item hitem => exact typesAs_item hitem h hbegins hzero
  | @group row hrow =>
    have hcanonical : text ++ Glyph.canonicalText ('(' :: row ++ [')']) =
        text ++ ['('] ++ Glyph.canonicalText row ++ [')'] := by
      simp [Glyph.canonicalText, Glyph.canonical]
    rw [hcanonical] at hzero ⊢
    exact ⟨h.group hlayout hbegins hrow fun hleading => hzero (hleading.append _), _, ')', rfl, rfl⟩
  | @groupPercent row hrow =>
    have hcanonical : text ++ Glyph.canonicalText ('(' :: row ++ [')', '%']) =
        text ++ ['('] ++ Glyph.canonicalText row ++ [')'] ++ ['%'] := by
      simp [Glyph.canonicalText, Glyph.canonical]
    rw [hcanonical] at hzero ⊢
    have hgroup := h.group hlayout hbegins hrow fun hleading =>
      hzero ((hleading.append _).append _)
    refine ⟨?_, _, '%', rfl, rfl⟩
    rw [List.append_cons, typeAll_append]
    exact hgroup.percent (.inr rfl)

/-- An expression is shown as it is typed, with its operators in ASCII spelling. -/
theorem typeAll_expression (hlayout : layout ∈ Layout.all) (hword : IsExpression word) :
    ({ initial with layout } : Editor).typeAll word =
        entry layout (Glyph.canonicalText word) false ∧
      Ends (Glyph.canonicalText word) := by
  have hstart : Shows layout { initial with layout } [] false := ⟨rfl, rfl⟩
  have hbegins : Begins [] := ⟨nofun, rfl⟩
  have hzero : ¬ HasLeadingZero ([] ++ Glyph.canonicalText word) :=
    fun hleading => hword.leadingZero (hasLeadingZero_canonicalText hleading)
  obtain ⟨hshows, hends⟩ :=
    typesAs_row (fun operand hterm => typesAs_term hlayout hterm) hword.row hstart hbegins hzero
  exact ⟨hshows.eq, hends⟩

end Editor

namespace Evaluation

/-- Glyphs of operators do not matter to the value of a text, nor to its fixed answer. -/
theorem ofText_canonicalText (text : List Char) :
    ofText (Glyph.canonicalText text) = ofText text := by
  have hsecret : Glyph.canonicalText text = secretText ↔ text = secretText := by
    constructor
    · intro h
      have hdigits : ∀ c ∈ text, Glyph.canonical c = c := by
        intro c hc
        have hmem : Glyph.canonical c ∈ secretText := h ▸ List.mem_map_of_mem hc
        refine Glyph.canonical_eq_of_isDigit ?_
        revert hmem
        exact List.all_eq_true.mp (by decide) _
      rw [← h]
      exact (Glyph.canonicalText_of_forall hdigits).symm
    · rintro rfl
      rfl
  simp only [ofText, hsecret, Glyph.canonicalText_canonicalText]

end Evaluation

namespace Session

open Typing

/-- An input leads to the editor that it asks for. -/
theorem editor_step {s : Session} {request : Request} {next : Editor}
    (h : s.editor.target? request = some next) : (s.step request).1.editor = next := by
  rw [(eq_of_timeline_eq (timeline_input h)).1, moveTo]
  split
  · next he => exact he.symm
  · rfl

/-- Typing a text is the typing of its characters. -/
theorem editor_run_typed (s : Session) (text : List Char) :
    (s.run (text.map fun c => .key (.char c))).editor = s.editor.typeAll text := by
  induction text generalizing s with
  | nil => rfl
  | cons c text ih =>
    have hstep : (s.step (.key (.char c))).1.editor = s.editor.type c := editor_step rfl
    rw [List.map_cons]
    show ((s.step (.key (.char c))).1.run _).editor = _
    rw [ih, hstep]
    rfl

/-- **What is typed is shown and evaluated.** On each layout in basic mode, the characters of an
expression leave the entry with that expression in ASCII spelling and nothing pending, and to ask for
its value then is to evaluate the text that was typed. -/
theorem typing_shows {layout : Layout} (hlayout : layout ∈ Layout.all)
    (undoLimit historyLimit : Nat) {text : List Char} (htext : IsExpression text) :
    let s := (start { Editor.initial with layout } undoLimit historyLimit).run
      (text.map fun c => .key (.char c))
    s.editor.buffer.chars = Glyph.canonicalText text ∧
      s.editor.cursor = s.editor.buffer.length ∧ s.editor.bracketCloses = false ∧
      s.editor.overlay = none ∧
      (s.step (.key .enter)).2 = .outcome (.evaluated (.ofText text)) := by
  intro s
  obtain ⟨htyped, hends⟩ := Editor.typeAll_expression hlayout htext
  have heditor : s.editor = Editor.entry layout (Glyph.canonicalText text) false :=
    (editor_run_typed _ text).trans htyped
  have hchars : s.editor.buffer.chars = Glyph.canonicalText text := by
    rw [heditor, Editor.chars_entry hends.ne_nil]
  refine ⟨hchars, ?_, ?_, ?_, ?_⟩
  · rw [heditor]
    rfl
  · rw [heditor]
    rfl
  · rw [heditor]
    rfl
  · have hevaluate : s.editor.evaluate = .ofText text := by
      rw [← Evaluation.ofText_canonicalText, ← hchars, heditor]
      rfl
    rw [← hevaluate]
    rfl

/-- A percentage of a bracket, times a number. -/
theorem typing_percentage :
    let text := "(1.5+2)%×3".toList
    let s := (start { Editor.initial with layout := .keyboard } defaultUndoLimit
      defaultHistoryLimit).run (text.map fun c => .key (.char c))
    Layout.keyboard ∈ Layout.all ∧ IsExpression text ∧
      s.editor.buffer.chars = "(1.5+2)%*3".toList ∧ s.editor.cursor = s.editor.buffer.length ∧
      s.editor.bracketCloses = false ∧ s.editor.overlay = none ∧
      (s.step (.key .enter)).2 = .outcome (.evaluated (.ofText text)) := by
  intro text s
  have hlayout : Layout.keyboard ∈ Layout.all := by decide
  have hdigit : ∀ {d : Char}, d.isDigit = true → ∀ c ∈ [d], c.isDigit = true :=
    fun hd => List.forall_mem_singleton.mpr hd
  have hnumber : IsNumeral (['1'] ++ '.' :: ['5']) := .point nofun (hdigit rfl) (hdigit rfl)
  have htwo : IsItem ['2'] := .number (.whole nofun (hdigit rfl))
  have hthree : IsItem ['3'] := .number (.whole nofun (hdigit rfl))
  have hterm : IsTerm ('(' :: ((['1'] ++ '.' :: ['5']) ++ '+' :: ['2']) ++ [')', '%']) :=
    .groupPercent (.more (.one (.number hnumber)) (by decide) htwo)
  have hrow : IsRow IsTerm
      (('(' :: ((['1'] ++ '.' :: ['5']) ++ '+' :: ['2']) ++ [')', '%']) ++ '×' :: ['3']) :=
    .more (.one hterm) (by decide) (.item hthree)
  have htext : IsExpression text :=
    ⟨hrow, fun ⟨_, _, hzero, _⟩ => absurd (List.cons.inj hzero).1 (by decide)⟩
  exact ⟨hlayout, htext, typing_shows hlayout defaultUndoLimit defaultHistoryLimit htext⟩

end Session

end PocketCalculator
