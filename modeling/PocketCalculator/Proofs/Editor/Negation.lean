import PocketCalculator.Proofs.Editor.Sign
import PocketCalculator.Proofs.Evaluation.Operands
import PocketCalculator.Proofs.Grammar.LastNumber
import PocketCalculator.Proofs.Token.Seam

/-!
# The sign key as negation

The sign key puts a character into the entry or takes one out. Where the entry is a sum that ends with
a number, this negates that number and changes nothing else (`signToggle_negates`). What the key looks
at, the two characters before the number, tells a sign from a subtraction just as the reader does: a
minus behind an operator or at the start is a sign of the number, and behind an opening bracket no sum
can end (`hasSign_iff`).
-/

namespace PocketCalculator

namespace Buffer

open Checked (numberRun numberSuffix_eq)

variable {b : Buffer} {front number text rest : List Char}

/-! ## What is before the number -/

/-- Behind a number there is no digit, and no point if the number has none. -/
theorem numberRun_stops {seenPoint : Bool} (h : text = numberRun seenPoint text ++ rest) :
    ∀ c ∈ rest.head?, Editor.isNumberChar c = true →
      c = '.' ∧ (seenPoint = true ∨ '.' ∈ numberRun seenPoint text) := by
  induction text generalizing seenPoint with
  | nil =>
    obtain rfl := (List.append_eq_nil_iff.mp h.symm).2
    nofun
  | cons d text ih =>
    rw [numberRun] at h ⊢
    split at h
    · next hdigit =>
      rw [if_pos hdigit]
      intro c hc hnumber
      have hstop := ih (List.cons.inj h).2 c hc hnumber
      exact ⟨hstop.1, hstop.2.imp_right (List.mem_cons_of_mem d)⟩
    · next hdigit =>
      rw [if_neg hdigit]
      split at h
      · next hpoint =>
        rw [if_pos hpoint]
        intro c hc hnumber
        have hstop := ih (List.cons.inj h).2 c hc hnumber
        rw [beq_iff_eq.mp (Bool.and_eq_true_iff.mp hpoint).1]
        exact ⟨hstop.1, .inr List.mem_cons_self⟩
      · next hpoint =>
        intro c hc hnumber
        rw [← List.nil_append rest, ← h] at hc
        obtain rfl : d = c := Option.some.inj hc
        rw [Editor.isNumberChar, Bool.or_eq_true, or_iff_right hdigit] at hnumber
        rw [hnumber, Bool.true_and, Bool.not_eq_true', Bool.not_eq_false] at hpoint
        exact ⟨beq_iff_eq.mp hnumber, .inl hpoint⟩

/-- In a well-formed entry the number at the end has nothing before it that could be part of it. -/
theorem EndsWith.not_isNumberChar (h : b.EndsWith front number) (hformed : Formed b.chars) :
    ∀ c ∈ front.getLast?, Editor.isNumberChar c = false := by
  have hnumber : number.reverse = numberRun false b.chars.reverse := by
    rw [← h.suffix, numberSuffix_eq, List.reverse_reverse]
  have hreverse : b.chars.reverse = numberRun false b.chars.reverse ++ front.reverse := by
    rw [← hnumber, h.chars, List.reverse_append]
  rw [h.chars] at hformed
  obtain ⟨-, -, hpoints⟩ := meet_parts hformed
  intro c hc
  by_contra hc'
  rw [Bool.not_eq_false] at hc'
  rw [List.getLast?_eq_head?_reverse] at hc
  obtain ⟨rfl, hnone | hpoint⟩ := numberRun_stops hreverse c hc hc'
  · cases hnone
  · -- Both sides have a point, and they are parts of one operand.
    rw [← List.getLast?_eq_head?_reverse] at hc
    obtain ⟨more, rfl⟩ := List.getLast?_eq_some_iff.mp hc
    rw [← hnumber, List.mem_reverse] at hpoint
    have hbefore := (before_operand more not_isOperator_point).1
    rw [if_pos rfl] at hbefore
    have hafter : 0 < pointsAfter number := by
      have hall : number.takeWhile isSegmentChar = number := by
        refine List.takeWhile_eq_self_iff.mpr fun d hd => ?_
        rw [isSegmentChar, Editor.isOperator_of_isNumberChar (h.isNumberChar hd)]
        rfl
      rw [pointsAfter, hall]
      exact List.count_pos_iff.mpr hpoint
    omega

end Buffer

namespace Editor

open Buffer (EndsWith Formed operatorsBefore pointsBefore formed_append meet meet_parts)
open Grammar (TakesSign Walks)

variable {s : Editor} {b : Buffer} {front back number text : List Char} {tokens : List Token}
  {value : Float} {tree : Expr}

/-- What is before the number ends with its sign: a minus at the start or behind an operator. -/
def HasSign (front : List Char) : Prop :=
  ∃ back, front = back ++ ['-'] ∧ ∀ c ∈ back.getLast?, Glyph.isOperator c = true

/-! ## Tokens before the number -/

theorem ofSymbol_of_isOperator {c : Char} (h : Glyph.isOperator c = true) :
    Token.IsSymbol c ∧ ∃ operator : Operator, Token.ofSymbol c = .ok operator.token := by
  unfold Glyph.isOperator at h
  simp only [Bool.or_eq_true, beq_iff_eq] at h
  rcases h with (((rfl | rfl) | rfl) | rfl) | rfl
  · exact ⟨by decide, .add, rfl⟩
  · exact ⟨by decide, .sub, rfl⟩
  · exact ⟨by decide, .mul, rfl⟩
  · exact ⟨by decide, .div, rfl⟩
  · exact ⟨by decide, .pow, rfl⟩

/-- Behind an operator the reader takes a minus for a sign. -/
theorem takesSign_of_isOperator (h : ∀ c ∈ back.getLast?, Glyph.isOperator c = true)
    (htokens : Token.tokens back = .ok tokens) : TakesSign tokens := by
  rcases List.eq_nil_or_concat' back with rfl | ⟨more, c, rfl⟩
  · rw [Token.tokens_eq_ok_iff, Token.scan_nil, eq_comm, List.map_eq_nil_iff] at htokens
    rw [htokens]
    nofun
  · obtain ⟨hsymbol, operator, hoperator⟩ := ofSymbol_of_isOperator (h c List.getLast?_concat)
    obtain ⟨before, token, -, htoken, rfl⟩ := (Token.tokens_concat_symbol hsymbol).mp htokens
    obtain rfl := Except.ok.inj (hoperator.symm.trans htoken)
    intro last hlast
    rw [List.getLast?_concat] at hlast
    exact ⟨operator, (Option.some.inj hlast).symm⟩

/-- No sum ends with a signed number behind an opening bracket, since the bracket is not closed. -/
theorem not_walks_bracket (before : List Token) (value : Float) :
    ¬ Walks .sum (before ++ [.leftParen] ++ [.minus] ++ [.number value]) := by
  intro hwalks
  have hwalk := hwalks [] .operand (by decide)
  rw [List.append_assoc, List.append_assoc, Grammar.Place.walk_append,
    Option.bind_eq_some_iff] at hwalk
  obtain ⟨⟨next, groups⟩, -, hrest⟩ := hwalk
  cases next <;> cases hrest

theorem signFits_of_isOperator (h : ∀ c ∈ back.getLast?, Glyph.isOperator c = true) :
    signFits back = true :=
  signFits_iff.mpr fun c hc => .inl (h c hc)

/-- **The key looks for the signs of the grammar.** -/
theorem hasSign_iff (hfront : Token.tokens front = .ok tokens)
    (htree : Expr.ofTokens (tokens ++ [.number value]) = .ok tree) :
    HasSign front ↔ ∃ back, front = back ++ ['-'] ∧ signFits back = true := by
  refine exists_congr fun back => and_congr_right ?_
  rintro rfl
  rw [signFits_iff]
  refine ⟨fun h c hc => .inl (h c hc), fun h c hc => ?_⟩
  rcases h c hc with hoperator | rfl
  · exact hoperator
  · exfalso
    obtain ⟨more, rfl⟩ := List.getLast?_eq_some_iff.mp hc
    obtain ⟨opened, sign, hopened, hsign, rfl⟩ :=
      (Token.tokens_concat_symbol (by decide)).mp hfront
    obtain ⟨before, bracket, -, hbracket, rfl⟩ :=
      (Token.tokens_concat_symbol (by decide)).mp hopened
    obtain rfl : Token.minus = sign := Except.ok.inj hsign
    obtain rfl : Token.leftParen = bracket := Except.ok.inj hbracket
    exact not_walks_bracket before value (Grammar.ofTokens_eq_ok_iff.mp htree).walk

/-! ## Tokens with the number -/

section Number

variable (h : b.EndsWith front number)

include h

theorem tokens_number (htext : ∀ c ∈ text.getLast?, isNumberChar c = false) :
    Token.tokens (text ++ number) = .ok tokens ↔
      ∃ before token, Token.tokens text = .ok before ∧ Token.ofNumber number = .ok token ∧
        tokens = before ++ [token] :=
  Token.tokens_append_number (fun _ hc => h.isNumberChar hc) h.ne_nil htext

/-- The number is the last token. -/
theorem exists_tokens_number (hformed : Formed b.chars)
    (htokens : Token.tokens b.chars = .ok tokens) :
    ∃ before value, Token.tokens front = .ok before ∧
      Token.ofNumber number = .ok (.number value) ∧ tokens = before ++ [.number value] := by
  rw [h.chars, tokens_number h (h.not_isNumberChar hformed)] at htokens
  obtain ⟨before, token, hbefore, htoken, rfl⟩ := htokens
  obtain ⟨d, -, rfl⟩ := Token.ofNumber_eq_ok htoken
  exact ⟨before, d.toFloat, hbefore, htoken, rfl⟩

end Number

/-! ## The toggled entry -/

theorem buffer_withSign_ne (h : s.buffer.EndsWith front number) :
    (s.withSign front number).buffer ≠ s.buffer := by
  intro heq
  have hlength := congrArg Buffer.length heq
  rw [length_withSign, h.length] at hlength
  omega

theorem buffer_withoutSign_ne (h : s.buffer.EndsWith (back ++ ['-']) number) :
    (s.withoutSign back number).buffer ≠ s.buffer := by
  intro heq
  have hlength := congrArg Buffer.length heq
  rw [length_withoutSign s back h.ne_nil, h.length, List.length_append,
    List.length_singleton] at hlength
  omega

theorem tokens_withSign (h : s.buffer.EndsWith front number)
    (hfront : Token.tokens front = .ok tokens)
    (hvalue : Token.ofNumber number = .ok (.number value)) :
    Token.tokens (s.withSign front number).buffer.chars
      = .ok (tokens ++ [.minus, .number value]) := by
  have hsign : Token.tokens (front ++ ['-']) = .ok (tokens ++ [.minus]) :=
    (Token.tokens_concat_symbol (by decide)).mpr ⟨tokens, .minus, hfront, rfl, rfl⟩
  have hminus : ∀ c ∈ (front ++ ['-']).getLast?, isNumberChar c = false := by
    rw [List.getLast?_concat]
    simp [isNumberChar]
  rw [withSign, Buffer.chars_ofChars (by simp), List.append_cons, List.append_cons tokens]
  exact (tokens_number h hminus).mpr ⟨_, _, hsign, hvalue, rfl⟩

theorem tokens_withoutSign (h : s.buffer.EndsWith (back ++ ['-']) number)
    (hback : Token.tokens back = .ok tokens)
    (hoperator : ∀ c ∈ back.getLast?, Glyph.isOperator c = true)
    (hvalue : Token.ofNumber number = .ok (.number value)) :
    Token.tokens (s.withoutSign back number).buffer.chars = .ok (tokens ++ [.number value]) := by
  have hfits := signFits_of_isOperator hoperator
  rw [withoutSign, Buffer.chars_ofChars (List.append_ne_nil_of_right_ne_nil back h.ne_nil)]
  exact (tokens_number h (isNumberChar_of_signFits hfits)).mpr ⟨_, _, hback, hvalue, rfl⟩

/-- Without its sign the number may stand where the sign was. -/
theorem formed_removeSign (h : b.EndsWith (back ++ ['-']) number) (hformed : Formed b.chars)
    (hback : ∀ c ∈ back.getLast?, Glyph.isOperator c = true) : Formed (back ++ number) := by
  rw [h.chars] at hformed
  obtain ⟨hleft, hnumber, hpoints⟩ := meet_parts hformed
  have hnone : pointsBefore back = 0 := by
    rcases List.eq_nil_or_concat' back with rfl | ⟨more, c, rfl⟩
    · rfl
    · exact (Buffer.before_operator more (hback c List.getLast?_concat)).1
  refine meet (formed_append.mp hleft).1 hnumber (by omega) (.inr fun c hc => ?_)
  exact isOperator_of_isNumberChar (h.isNumberChar (List.mem_of_mem_head? hc))

/-- A sign of the number is taken out. -/
theorem apply_signed (haccepts : s.layout.accepts s.mode .signToggle = true)
    (hoverlay : s.overlay = none) (hformed : s.buffer.isWellFormed = true)
    (hzero : s.buffer.isZero = false) (h : s.buffer.EndsWith (back ++ ['-']) number)
    (hback : ∀ c ∈ back.getLast?, Glyph.isOperator c = true) :
    s.apply .signToggle = s.withoutSign back number := by
  have hbare : (s.withoutSign back number).buffer.isWellFormed = true :=
    formed_ofChars (formed_removeSign h hformed hback)
  have hfits := signFits_of_isOperator hback
  rw [apply_signToggle haccepts hoverlay hformed, toggleSign_signed hzero h hfits, if_pos hbare]

/-- **The sign key negates the number at the end of a sum.** Number and tree are those of the entry
before the key. A sign that is put in is one negation more around the number, unless the sum is too deep
then, and a sign that is taken out is one negation less. -/
theorem signToggle_negates {start : Nat} (haccepts : s.layout.accepts s.mode .signToggle = true)
    (hoverlay : s.overlay = none) (hzero : s.buffer.isZero = false)
    (hformed : s.buffer.isWellFormed = true) (hnumber : s.buffer.trailingNumber? = some start)
    (htokens : Token.tokens s.buffer.chars = .ok tokens) (htree : Expr.ofTokens tokens = .ok tree)
    (hroot : tokens.dropLast.getLast? ≠ some (.function .sqrt)) :
    ∃ toggled value spine count,
      (s.apply .signToggle).buffer ≠ s.buffer ∧
      Token.tokens (s.apply .signToggle).buffer.chars = .ok toggled ∧
      Token.ofNumber (s.buffer.chars.drop start) = .ok (.number value) ∧
      tree = Spine.fill spine (Expr.neg^[count] (.number value)) ∧
      (HasSign (s.buffer.chars.take start) →
        (∃ fewer, count = fewer + 1 ∧
          Expr.ofTokens toggled = .ok (spine.fill (Expr.neg^[fewer] (.number value)))) ∧
        (s.apply .signToggle).cursor = if start ≤ s.cursor then s.cursor - 1 else s.cursor) ∧
      (¬ HasSign (s.buffer.chars.take start) →
        (Expr.ofTokens toggled = .ok (spine.fill (Expr.neg^[count + 1] (.number value))) ∨
          Expr.ofTokens toggled = .error .tooDeep) ∧
        (s.apply .signToggle).cursor = if start ≤ s.cursor then s.cursor + 1 else s.cursor) := by
  obtain ⟨front, number, hends, rfl⟩ := Buffer.exists_endsWith hnumber
  obtain ⟨before, value, hbefore, hvalue, rfl⟩ := exists_tokens_number hends hformed htokens
  rw [List.dropLast_concat] at hroot
  obtain ⟨spine, count, rfl, hmore, hfewer⟩ := Grammar.number_negated htree hroot
  have hsign := hasSign_iff hbefore htree
  rw [← isSigned_iff hends.chars] at hsign
  rw [hends.chars, List.take_left, List.drop_left, hvalue, hsign]
  cases hsigned : isSigned s.buffer front.length with
  | true =>
    obtain ⟨back, rfl, hback⟩ := hsign.mpr hsigned
    obtain ⟨others, sign, hothers, hminus, rfl⟩ :=
      (Token.tokens_concat_symbol (by decide)).mp hbefore
    obtain rfl : Token.minus = sign := Except.ok.inj hminus
    obtain ⟨fewer, rfl, hread⟩ := hfewer others rfl (takesSign_of_isOperator hback hothers)
    rw [apply_signed haccepts hoverlay hformed hzero hends hback]
    refine ⟨_, value, spine, fewer + 1, buffer_withoutSign_ne hends,
      tokens_withoutSign hends hothers hback hvalue, rfl, rfl, fun _ => ⟨⟨fewer, rfl, hread⟩, ?_⟩,
      fun hunsigned => absurd rfl hunsigned⟩
    rw [List.length_append]
    rfl
  | false =>
    rw [apply_unsigned haccepts hoverlay hformed hzero hends hsigned]
    exact ⟨_, value, spine, count, buffer_withSign_ne hends,
      tokens_withSign hends hbefore hvalue, rfl, rfl, nofun, fun _ => ⟨hmore, rfl⟩⟩

/-- An exponent loses its sign. -/
theorem exponent_negated :
    let s := ofText "2^-3".toList
    let tokens := [Token.number 2, .caret, .minus, .number 3]
    s.layout.accepts s.mode .signToggle = true ∧ s.overlay = none ∧ s.buffer.isZero = false ∧
      s.buffer.isWellFormed = true ∧ s.buffer.trailingNumber? = some 3 ∧
      Token.tokens s.buffer.chars = .ok tokens ∧
      Expr.ofTokens tokens = .ok (.pow (.number 2) (.neg (.number 3))) ∧
      tokens.dropLast.getLast? ≠ some (.function .sqrt) ∧
      ∃ toggled, Token.tokens (s.apply .signToggle).buffer.chars = .ok toggled ∧
        Expr.ofTokens toggled = .ok (.pow (.number 2) (.number 3)) := by
  intro s tokens
  have haccepts : s.layout.accepts s.mode .signToggle = true := by decide
  have hzero : s.buffer.isZero = false := by decide
  have hformed : s.buffer.isWellFormed = true := by decide
  have hnumber : s.buffer.trailingNumber? = some 3 := by decide
  have hthree : Token.ofNumber ['3'] = .ok (.number 3) := by
    unfold Token.ofNumber
    decide
  have htokens : Token.tokens s.buffer.chars = .ok tokens := by
    have htwo : Token.ofNumber ['2'] = .ok (.number 2) := by
      unfold Token.ofNumber
      decide
    have hcaret : Token.IsSymbol '^' := by decide
    have hminus : Token.IsSymbol '-' := by decide
    rw [Token.tokens_eq_ok_iff]
    show Token.scan (['2'] ++ '^' :: '-' :: ['3']) = _
    rw [Token.scan_append_symbol hcaret, Token.scan_cons_symbol hminus,
      Token.scan_number (by simp [Token.isNumeric]), Token.scan_number (by simp [Token.isNumeric]),
      htwo, hthree]
    rfl
  have htree : Expr.ofTokens tokens = .ok (.pow (.number 2) (.neg (.number 3))) := rfl
  have hroot : tokens.dropLast.getLast? ≠ some (.function .sqrt) := by decide
  refine ⟨haccepts, rfl, hzero, hformed, hnumber, htokens, htree, hroot, ?_⟩
  obtain ⟨toggled, value, spine, count, -, htoggled, hvalue, hfill, hsigned, -⟩ :=
    signToggle_negates haccepts rfl hzero hformed hnumber htokens htree hroot
  obtain ⟨⟨fewer, rfl, hread⟩, -⟩ := hsigned ⟨['2', '^'], rfl, by simp [Glyph.isOperator]⟩
  refine ⟨toggled, htoggled, ?_⟩
  obtain rfl : 3 = value := Token.number.inj (Except.ok.inj (hthree.symm.trans hvalue))
  rw [Function.iterate_succ_apply'] at hfill
  -- The negation in the tree is the one that is taken away.
  cases spine with
  | operand | link => cases hfill
  | exponent base spine =>
    obtain ⟨rfl, hexponent⟩ := Expr.pow.inj hfill
    cases spine with
    | operand => rwa [Spine.fill, Spine.fill, ← Expr.neg.inj hexponent] at hread
    | exponent | link => cases hexponent

end Editor

end PocketCalculator
