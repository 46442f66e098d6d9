import PocketCalculator.Evaluation
import PocketCalculator.Proofs.Token.Piece
import PocketCalculator.Text.Ranges

/-!
# The operand check

An evaluation refuses a text without a digit, `π` or `e` before it reads it. This file compares that
look at the characters with the tokens.
-/

namespace PocketCalculator

namespace Token

/-! ## The characters of operands -/

/-- A digit, or the letter that names a constant. -/
def isDigitOrE (c : Char) : Bool :=
  c.isDigit || c == 'e'

/-- An operand other than the circle constant. -/
def isPlainOperand (token : Token) : Bool :=
  token.isOperand && token != .constant .pi

theorem any_isDigitOrE_of_blanks {blanks : List Char}
    (h : ∀ c ∈ blanks, Text.isBlank c = true) :
    blanks.any isDigitOrE = false ∧ 'π' ∉ blanks := by
  refine ⟨?_, fun hpi => absurd (h _ hpi) (by decide)⟩
  rw [List.any_eq_false]
  intro c hc hd
  have hb := h c hc
  rw [isDigitOrE, Bool.or_eq_true, Text.isDigit_iff_toNat] at hd
  rcases hd with hd | he
  · simp only [Text.isBlank, Bool.or_eq_true, Bool.and_eq_true, decide_eq_true_eq, beq_iff_eq] at hb
    omega
  · rw [eq_of_beq he] at hb
    exact absurd hb (by decide)

theorem exists_digit_of_ofText? {text : List Char} {d : Decimal}
    (h : Decimal.ofText? text = some d) : ∃ c ∈ text, c.isDigit = true := by
  have hsplit := List.takeWhile_append_dropWhile (p := Char.isDigit) (l := text)
  have hwhole : ∀ c ∈ text.takeWhile Char.isDigit, c ∈ text ∧ c.isDigit = true :=
    fun c hc => ⟨(List.takeWhile_prefix _).subset hc, List.mem_takeWhile_imp hc⟩
  unfold Decimal.ofText? at h
  dsimp only at h
  split at h
  · split at h
    · cases h
    · next hne =>
      obtain ⟨c, hc⟩ := List.exists_mem_of_ne_nil _ fun hnil => hne (List.isEmpty_iff.mpr hnil)
      exact ⟨c, hwhole c hc⟩
  · next fraction hf =>
    split at h
    · next hall =>
      rw [Bool.and_eq_true, List.all_eq_true] at hall
      obtain ⟨c, hc⟩ := List.exists_mem_of_ne_nil (text.takeWhile Char.isDigit ++ fraction)
        fun hnil => absurd hall.2 (by simp [hnil])
      rcases List.mem_append.mp hc with hc | hc
      · exact ⟨c, hwhole c hc⟩
      · refine ⟨c, ?_, hall.1 c hc⟩
        rw [← hsplit, hf]
        simp [hc]
    · cases h
  · cases h

theorem ofName_eq_ok {text : List Char} {token : Token} (h : ofName text = .ok token) :
    (∃ f : MathFunction, 'e' ∉ f.name.toList ∧ text = f.name.toList ∧ token = .function f) ∨
      text = ['e'] ∧ token = .constant .e ∨ text = ['p', 'i'] ∧ token = .constant .pi := by
  have hname : ∀ name : String, String.ofList text = name → text = name.toList :=
    fun name he => he ▸ String.toList_ofList.symm
  unfold ofName at h
  dsimp only at h
  split at h
  · next he => exact .inl ⟨.sin, by decide, hname _ he, (Except.ok.inj h).symm⟩
  split at h
  · next he => exact .inl ⟨.cos, by decide, hname _ he, (Except.ok.inj h).symm⟩
  split at h
  · next he => exact .inl ⟨.tan, by decide, hname _ he, (Except.ok.inj h).symm⟩
  split at h
  · next he => exact .inl ⟨.ln, by decide, hname _ he, (Except.ok.inj h).symm⟩
  split at h
  · next he => exact .inl ⟨.log, by decide, hname _ he, (Except.ok.inj h).symm⟩
  split at h
  · next he => exact .inr (.inl ⟨hname _ he, (Except.ok.inj h).symm⟩)
  split at h
  · next he => exact .inr (.inr ⟨hname _ he, (Except.ok.inj h).symm⟩)
  · cases h

theorem ofNumber_eq_ok {text : List Char} {token : Token} (h : ofNumber text = .ok token) :
    ∃ d, Decimal.ofText? text = some d ∧ token = .number d.toFloat := by
  unfold ofNumber at h
  split at h
  · next d hd => exact ⟨d, hd, (Except.ok.inj h).symm⟩
  · cases h

theorem ofSymbol_eq_ok {c : Char} {token : Token} (h : ofSymbol c = .ok token) :
    token.isPlainOperand = false ∧ (c = 'π' → token = .constant .pi) := by
  unfold ofSymbol at h
  split at h <;> cases h <;> exact ⟨rfl, by decide⟩

/-- The token of a piece is a plain operand if the piece has a digit or the letter of a constant. The
circle constant is told from its sign alone: its other spelling has no letter of its own. -/
theorem IsPiece.operand {piece rest : List Char} {token : Token}
    (h : IsPiece rest piece (.ok token)) :
    piece.any isDigitOrE = token.isPlainOperand ∧ ('π' ∈ piece → token = .constant .pi) := by
  generalize hr : Except.ok token = result at h
  cases h with
  | number all stop =>
    obtain ⟨d, hd, rfl⟩ := ofNumber_eq_ok hr.symm
    obtain ⟨c, hc, hdigit⟩ := exists_digit_of_ofText? hd
    refine ⟨?_, fun hpi => absurd (all _ hpi) (by decide)⟩
    exact List.any_eq_true.mpr ⟨c, hc, by simp [isDigitOrE, hdigit]⟩
  | name all stop =>
    refine ⟨?_, fun hpi => absurd (all _ hpi) (by decide)⟩
    rcases ofName_eq_ok hr.symm with ⟨f, he, hf, rfl⟩ | ⟨hf, rfl⟩ | ⟨hf, rfl⟩ <;> rw [hf]
    · rw [show (function f).isPlainOperand = false from rfl, List.any_eq_false]
      intro c hc hd
      rw [isDigitOrE, Bool.or_eq_true] at hd
      rcases hd with hd | he'
      · exact absurd (all c (hf ▸ hc)) (by simp [Text.not_isAlpha_of_isDigit hd])
      · exact he (eq_of_beq he' ▸ hc)
    · decide
    · decide
  | @symbol c blank numeric alpha =>
    obtain ⟨hp, hpi⟩ := ofSymbol_eq_ok hr.symm
    refine ⟨?_, fun h => hpi (List.mem_singleton.mp h).symm⟩
    rw [hp, List.any_cons, List.any_nil, Bool.or_false, isDigitOrE, Bool.or_eq_false_iff]
    refine ⟨(Bool.or_eq_false_iff.mp numeric).1, ?_⟩
    rw [beq_eq_false_iff_ne]
    rintro rfl
    exact absurd alpha (by decide)

/-- **The operands of a text are in its characters**: it has an operand other than the circle
constant exactly if it has a digit or the letter of a constant. -/
theorem scan_operands (text : List Char) : ∀ list : List Token, scan text = list.map .ok →
    text.any isDigitOrE = list.any isPlainOperand ∧
      ('π' ∈ text → Token.constant .pi ∈ list) := by
  refine scan_induction (P := fun text pieces => ∀ list : List Token, pieces = list.map .ok →
    text.any isDigitOrE = list.any isPlainOperand ∧
      ('π' ∈ text → Token.constant .pi ∈ list)) ?_ ?_ text
  · intro blanks hb list hl
    obtain rfl := List.map_eq_nil_iff.mp hl.symm
    obtain ⟨hplain, hpi⟩ := any_isDigitOrE_of_blanks hb
    exact ⟨hplain, fun h => absurd h hpi⟩
  · intro blanks piece rest result hb hp ih list hl
    rcases list with - | ⟨token, list⟩
    · cases hl
    · obtain ⟨rfl, htail⟩ := List.cons.inj hl
      obtain ⟨hplain, hpi⟩ := ih list htail
      obtain ⟨hplain', hpi'⟩ := hp.operand
      obtain ⟨hblank, hblank'⟩ := any_isDigitOrE_of_blanks hb
      constructor
      · rw [List.any_append, List.any_append, hblank, hplain, hplain', Bool.false_or, List.any_cons]
      · intro h
        rcases List.mem_append.mp h with h | h
        · rcases List.mem_append.mp h with h | h
          · exact absurd h hblank'
          · exact hpi' h ▸ List.mem_cons_self
        · exact List.mem_cons_of_mem _ (hpi h)

end Token

end PocketCalculator
