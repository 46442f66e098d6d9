import PocketCalculator.Proofs.Token.Piece
import PocketCalculator.Text.Ranges

/-!
# Pieces on both sides of a symbol

A text can be cut where no piece goes on, and its pieces are those of the two parts (`scan_append`). No
piece goes on past a character that stands for itself (`scan_append_symbol`), and none but a row of
digits and points goes on with one (`scan_run`).
-/

namespace PocketCalculator.Token

/-- A character that is a piece by itself. -/
structure IsSymbol (c : Char) : Prop where
  blank : Text.isBlank c = false
  numeric : isNumeric c = false
  alpha : c.isAlpha = false

instance (c : Char) : Decidable (IsSymbol c) :=
  decidable_of_iff (Text.isBlank c = false ∧ isNumeric c = false ∧ c.isAlpha = false)
    ⟨fun h => ⟨h.1, h.2.1, h.2.2⟩, fun h => ⟨h.blank, h.numeric, h.alpha⟩⟩

/-! ## What is a piece is read -/

theorem toNat_of_isNumeric {c : Char} (h : isNumeric c = true) :
    0x2E ≤ c.toNat ∧ c.toNat ≤ 0x39 := by
  rw [isNumeric, Bool.or_eq_true, beq_iff_eq, Text.isDigit_iff_toNat] at h
  rcases h with hd | rfl
  · omega
  · decide

theorem not_isBlank_of_isNumeric {c : Char} (h : isNumeric c = true) : Text.isBlank c = false := by
  rw [Bool.eq_false_iff]
  intro hb
  have hnumeric := toNat_of_isNumeric h
  have hle := Text.toNat_le_of_isBlank hb (by omega)
  omega

theorem not_isBlank_of_isAlpha {c : Char} (h : c.isAlpha = true) : Text.isBlank c = false := by
  rw [Bool.eq_false_iff]
  intro hb
  rw [Text.isAlpha_iff_toNat] at h
  have hle := Text.toNat_le_of_isBlank hb (by omega)
  omega

theorem not_isNumeric_of_isAlpha {c : Char} (h : c.isAlpha = true) : isNumeric c = false := by
  rw [Bool.eq_false_iff]
  intro hn
  rw [isNumeric, Bool.or_eq_true, beq_iff_eq] at hn
  rcases hn with hd | rfl
  · rw [Text.not_isAlpha_of_isDigit hd] at h
    cases h
  · cases h

theorem next?_blanks {blanks : List Char} (h : ∀ c ∈ blanks, Text.isBlank c = true)
    (text : List Char) : next? (blanks ++ text) = next? text := by
  induction blanks with
  | nil => rfl
  | cons c blanks ih =>
    rw [List.forall_mem_cons] at h
    rw [List.cons_append, next?, if_pos h.1]
    exact ih h.2

/-- **A piece is read as what it is.** -/
theorem next?_piece {piece rest : List Char} {result : Except EvalError Token}
    (h : IsPiece rest piece result) : next? (piece ++ rest) = some (result, rest) := by
  cases h with
  | @number c more all stop =>
    rw [List.forall_mem_cons] at all
    obtain ⟨hrow, hrest⟩ := takeWhile_row all.2 stop
    rw [List.cons_append, next?, not_isBlank_of_isNumeric all.1, all.1, hrow, hrest]
    rfl
  | @name c more all stop =>
    rw [List.forall_mem_cons] at all
    obtain ⟨hrow, hrest⟩ := takeWhile_row all.2 stop
    rw [List.cons_append, next?, not_isBlank_of_isAlpha all.1, not_isNumeric_of_isAlpha all.1,
      all.1, hrow, hrest]
    rfl
  | @symbol c blank numeric alpha =>
    rw [List.singleton_append, next?, blank, numeric, alpha]
    rfl

theorem scan_nil : scan [] = [] :=
  scan_of_next?_none rfl

/-- A row of digits and points is one piece. -/
theorem scan_number {c : Char} {more : List Char} (hall : ∀ d ∈ c :: more, isNumeric d = true) :
    scan (c :: more) = [ofNumber (c :: more)] := by
  have hpiece : IsPiece [] (c :: more) (ofNumber (c :: more)) := .number hall (by simp)
  have hread := next?_piece hpiece
  rw [List.append_nil] at hread
  rw [scan_of_next?_some hread, scan_nil]

theorem tokens_number_row {c : Char} {more : List Char} {token : Token}
    (hall : ∀ d ∈ c :: more, isNumeric d = true) (htoken : ofNumber (c :: more) = .ok token) :
    tokens (c :: more) = .ok [token] := by
  rw [tokens_eq_ok_iff, scan_number hall, htoken]
  rfl

/-! ## Cutting a text -/

section Cut

variable {c : Char} {text more number : List Char}

/-- A piece stays one where more text follows, if it is one in front of that text alone. -/
theorem IsPiece.append {rest piece : List Char} {result : Except EvalError Token}
    (h : IsPiece rest piece result) (hmore : rest = [] → IsPiece more piece result) :
    IsPiece (rest ++ more) piece result := by
  cases rest with
  | nil => exact hmore rfl
  | cons d rest =>
    cases h with
    | number all stop => exact .number all stop
    | name all stop => exact .name all stop
    | symbol blank numeric alpha => exact .symbol blank numeric alpha

theorem scan_blanks {blanks : List Char} (hblanks : ∀ c ∈ blanks, Text.isBlank c = true)
    (text : List Char) : scan (blanks ++ text) = scan text := by
  have hread := next?_blanks hblanks text
  cases htext : next? text with
  | none => rw [scan_of_next?_none htext, scan_of_next?_none (hread.trans htext)]
  | some read => rw [scan_of_next?_some htext, scan_of_next?_some (hread.trans htext)]

/-- **A text can be cut where no piece goes on.** -/
theorem scan_append (hmore : ∀ {piece result}, piece <:+ text → IsPiece [] piece result →
    IsPiece more piece result) : scan (text ++ more) = scan text ++ scan more := by
  revert hmore
  refine scan_induction (P := fun text pieces => (∀ {piece result}, piece <:+ text →
    IsPiece [] piece result → IsPiece more piece result) →
      scan (text ++ more) = pieces ++ scan more) ?_ ?_ text
  · intro blanks hblanks _
    exact scan_blanks hblanks more
  · intro blanks piece rest result hblanks hpiece ih hmore
    have hcut : IsPiece (rest ++ more) piece result := by
      refine hpiece.append ?_
      rintro rfl
      refine hmore ?_ hpiece
      rw [List.append_nil]
      exact List.suffix_append blanks piece
    have hread : next? (blanks ++ piece ++ rest ++ more) = some (result, rest ++ more) := by
      rw [List.append_assoc, List.append_assoc, next?_blanks hblanks]
      exact next?_piece hcut
    rw [scan_of_next?_some hread,
      ih fun hsuffix => hmore (hsuffix.trans (List.suffix_append ..)), List.cons_append]

theorem scan_cons_symbol (hc : IsSymbol c) (more : List Char) :
    scan (c :: more) = ofSymbol c :: scan more :=
  scan_of_next?_some (next?_piece (.symbol hc.blank hc.numeric hc.alpha))

/-- **The pieces of a text on both sides of a symbol.** -/
theorem scan_append_symbol (hc : IsSymbol c) (more text : List Char) :
    scan (text ++ c :: more) = scan text ++ ofSymbol c :: scan more := by
  rw [scan_append, scan_cons_symbol hc]
  intro piece result _ hpiece
  cases hpiece with
  | number all _ => exact .number all (by simp [hc.numeric])
  | name all _ => exact .name all (by simp [hc.alpha])
  | symbol blank numeric alpha => exact .symbol blank numeric alpha

/-- **A row of digits and points, as far as it reaches, is a piece of its own.** -/
theorem scan_run (hrun : Text.IsRun isNumeric text number more) (hne : number ≠ []) :
    scan (text ++ number ++ more) = scan text ++ ofNumber number :: scan more := by
  obtain ⟨c, others, rfl⟩ := List.exists_cons_of_ne_nil hne
  have hc := hrun.all c List.mem_cons_self
  have hrow : IsPiece more (c :: others) (ofNumber (c :: others)) := .number hrun.all hrun.after
  rw [List.append_assoc, scan_append, scan_of_next?_some (next?_piece hrow)]
  rintro piece result ⟨front, rfl⟩ hpiece
  have htext := hrun.before
  cases hpiece with
  | @number first others' all _ =>
    -- The text would end with a digit or a point.
    rw [List.getLast?_append, List.getLast?_eq_some_getLast (List.cons_ne_nil first others'),
      Option.some_or] at htext
    have hlast := htext _ rfl
    rw [all _ (List.getLast_mem _)] at hlast
    cases hlast
  | name all _ =>
    refine .name all fun d hd => ?_
    obtain rfl : c = d := Option.some.inj hd
    by_contra halpha
    rw [not_isNumeric_of_isAlpha (by simpa using halpha)] at hc
    cases hc
  | symbol blank numeric alpha => exact .symbol blank numeric alpha

theorem scan_append_number (hall : ∀ d ∈ number, isNumeric d = true) (hne : number ≠ [])
    (htext : ∀ d ∈ text.getLast?, isNumeric d = false) :
    scan (text ++ number) = scan text ++ [ofNumber number] := by
  have hrun : Text.IsRun isNumeric text number [] := ⟨hall, htext, by simp⟩
  have hscan := scan_run hrun hne
  rwa [List.append_nil, scan_nil] at hscan

/-- The tokens of a text with one piece more. -/
theorem tokens_eq_ok_concat_iff {whole : List Char} {piece : Except EvalError Token}
    {list : List Token} (hscan : scan whole = scan text ++ [piece]) :
    tokens whole = .ok list ↔
      ∃ before token, tokens text = .ok before ∧ piece = .ok token ∧ list = before ++ [token] := by
  rw [tokens_eq_ok_iff, hscan, eq_comm, List.map_eq_append_iff]
  constructor
  · rintro ⟨before, last, rfl, hbefore, hlast⟩
    obtain ⟨token, rfl, rfl⟩ := List.map_eq_singleton_iff.mp hlast
    exact ⟨before, token, tokens_eq_ok_iff.mpr hbefore.symm, rfl, rfl⟩
  · rintro ⟨before, token, hbefore, rfl, rfl⟩
    exact ⟨before, [token], rfl, (tokens_eq_ok_iff.mp hbefore).symm, rfl⟩

/-- The tokens of a text with a symbol behind it. -/
theorem tokens_concat_symbol (hc : IsSymbol c) {list : List Token} :
    tokens (text ++ [c]) = .ok list ↔
      ∃ before token, tokens text = .ok before ∧ ofSymbol c = .ok token ∧ list = before ++ [token] := by
  refine tokens_eq_ok_concat_iff ?_
  rw [scan_append_symbol hc, scan_nil]

/-- The tokens of a text with a row of digits and points behind it. -/
theorem tokens_append_number (hall : ∀ d ∈ number, isNumeric d = true) (hne : number ≠ [])
    (htext : ∀ d ∈ text.getLast?, isNumeric d = false) {list : List Token} :
    tokens (text ++ number) = .ok list ↔
      ∃ before token, tokens text = .ok before ∧ ofNumber number = .ok token ∧
        list = before ++ [token] :=
  tokens_eq_ok_concat_iff (scan_append_number hall hne htext)

end Cut

end PocketCalculator.Token
