import Mathlib.Data.List.SplitBy
import Mathlib.Data.String.Basic
import PocketCalculator.Proofs.Token.Seam

/-!
# The segments of a text

A text falls into segments, the longest rows of one kind of characters, where every symbol is a
segment of its own (`segments`). Those that are not blank are its pieces, and what a piece is read as
depends on the piece alone (`classify`): a row of digits and points is the number that it writes, and
anything else is looked up. `scan_eq` says that reading a text gives its pieces in this sense, in
their order, and `tokens_eq_error_iff` that the first bad one decides.
-/

namespace PocketCalculator.Token

open Text (IsRun)

/-! ## Cutting -/

/-- What a character is to the reader. -/
inductive CharKind where
  | blank
  | numeric
  | letter
  | symbol
  deriving DecidableEq

def charKind (c : Char) : CharKind :=
  if Text.isBlank c then .blank
  else if c.isDigit || c == '.' then .numeric
  else if c.isAlpha then .letter
  else .symbol

/-- A character that follows this one directly belongs to the same segment. -/
def runsOn (c next : Char) : Bool :=
  charKind c == charKind next && charKind c != .symbol

/-- The text in the longest rows of characters that run on (`List.splitBy_eq_iff`). -/
def segments (text : List Char) : List (List Char) :=
  text.splitBy runsOn

/-- The segments that are not blank. -/
def pieces (text : List Char) : List (List Char) :=
  (segments text).filter fun segment => !segment.all Text.isBlank

/-! ## What a piece is -/

/-- The number that digits with at most one point write: all the digits in a row, and how many of
them are behind the point. -/
def rowValue (row : List Char) : Decimal :=
  ⟨Nat.ofDigitChars 10 (row.filter Char.isDigit) 0, row.length - (row.idxOf '.' + 1)⟩

/-- The names of functions and constants. -/
def names : List (List Char × Token) :=
  [("sin".toList, .function .sin), ("cos".toList, .function .cos), ("tan".toList, .function .tan),
    ("ln".toList, .function .ln), ("log".toList, .function .log), ("e".toList, .constant .e),
    ("pi".toList, .constant .pi)]

/-- The operators, the brackets and the signs of a constant and of a function. -/
def symbols : List (List Char × Token) :=
  [(['+'], .plus), (['-'], .minus), (['*'], .star), (['/'], .slash), (['^'], .caret),
    (['%'], .percent), (['('], .leftParen), ([')'], .rightParen), (['|'], .bar),
    (['π'], .constant .pi), (['√'], .function .sqrt)]

/-- The token that a piece is, or what is wrong with it. -/
def classify (piece : List Char) : Except EvalError Token :=
  if piece.all isNumeric then
    if piece.any Char.isDigit ∧ piece.count '.' ≤ 1 then .ok (.number (rowValue piece).toFloat)
    else .error (.invalidNumber (String.ofList piece))
  else if piece.all Char.isAlpha then
    (names.lookup piece).elim (.error (.unknownIdentifier (String.ofList piece))) .ok
  else (symbols.lookup piece).elim (.error (.unexpectedToken (String.ofList piece))) .ok

/-! ## Numbers -/

theorem any_isDigit {digits : List Char} (h : ∀ c ∈ digits, c.isDigit = true) :
    digits.any Char.isDigit = !digits.isEmpty := by
  cases digits with
  | nil => rfl
  | cons c digits => simp [h c]

section Row

variable {whole fraction : List Char} (hwhole : ∀ c ∈ whole, c.isDigit = true)

include hwhole

theorem point_notMem : '.' ∉ whole :=
  fun hmem => absurd (hwhole _ hmem) (by decide)

theorem count_point (fraction : List Char) :
    (whole ++ '.' :: fraction).count '.' = fraction.count '.' + 1 := by
  rw [List.count_append, List.count_cons_self, List.count_eq_zero.mpr (point_notMem hwhole),
    Nat.zero_add]

theorem rowValue_whole : rowValue whole = ⟨Nat.ofDigitChars 10 whole 0, 0⟩ := by
  rw [rowValue, List.filter_eq_self.mpr hwhole, List.idxOf_eq_length (point_notMem hwhole),
    Nat.sub_eq_zero_of_le (Nat.le_succ _)]

theorem rowValue_fraction (hfraction : ∀ c ∈ fraction, c.isDigit = true) :
    rowValue (whole ++ '.' :: fraction) =
      ⟨Nat.ofDigitChars 10 (whole ++ fraction) 0, fraction.length⟩ := by
  have hdigits : (whole ++ '.' :: fraction).filter Char.isDigit = whole ++ fraction := by
    rw [List.filter_append, List.filter_eq_self.mpr hwhole, List.filter_cons_of_neg (by decide),
      List.filter_eq_self.mpr hfraction]
  have hplaces : (whole ++ '.' :: fraction).length - (whole.length + 1) = fraction.length := by
    rw [List.length_append, List.length_cons]
    omega
  rw [rowValue, hdigits, List.idxOf_append_of_notMem (point_notMem hwhole), List.idxOf_cons_self,
    Nat.add_zero, hplaces]

end Row

/-- A row of digits and points is a number if it has a digit and no two points. -/
theorem ofText?_row {row : List Char} (hrow : ∀ c ∈ row, isNumeric c = true) :
    Decimal.ofText? row =
      if row.any Char.isDigit ∧ row.count '.' ≤ 1 then some (rowValue row) else none := by
  have hsplit := List.takeWhile_append_dropWhile (p := Char.isDigit) (l := row)
  have hwhole : ∀ c ∈ row.takeWhile Char.isDigit, c.isDigit = true :=
    fun c hc => List.mem_takeWhile_imp hc
  have hstop : ∀ c ∈ (row.dropWhile Char.isDigit).head?, c.isDigit = false :=
    Text.head?_dropWhile
  rw [Decimal.ofText?]
  generalize row.takeWhile Char.isDigit = whole at *
  generalize row.dropWhile Char.isDigit = rest at *
  subst hsplit
  cases rest with
  | nil =>
    rw [List.append_nil, any_isDigit hwhole, rowValue_whole hwhole,
      List.count_eq_zero.mpr (point_notMem hwhole)]
    simp
  | cons c fraction =>
    -- The first character behind the digits is numeric and no digit.
    obtain rfl : c = '.' := by
      have hc := hrow c (by simp)
      rw [isNumeric, hstop c rfl, Bool.false_or, beq_iff_eq] at hc
      exact hc
    rw [count_point hwhole]
    by_cases hfraction : ∀ c ∈ fraction, c.isDigit = true
    · have hdigits : ∀ c ∈ whole ++ fraction, c.isDigit = true :=
        fun c hc => (List.mem_append.mp hc).elim (hwhole c) (hfraction c)
      have hany : (whole ++ '.' :: fraction).any Char.isDigit =
          (whole ++ fraction).any Char.isDigit := by
        simp
      have hall : fraction.all Char.isDigit = true := List.all_eq_true.mpr hfraction
      rw [rowValue_fraction hwhole hfraction, hany, any_isDigit hdigits,
        List.count_eq_zero.mpr (point_notMem hfraction)]
      simp only [hall, Bool.true_and, Nat.zero_add, Nat.le_refl, and_true]
    · -- What is no digit there is a second point.
      have hpoint : fraction.count '.' ≠ 0 := by
        intro hzero
        refine hfraction fun c hc => ?_
        have hnumeric := hrow c (by simp [hc])
        rw [isNumeric, Bool.or_eq_true, beq_iff_eq] at hnumeric
        rcases hnumeric with hdigit | rfl
        · exact hdigit
        · exact absurd hc (List.count_eq_zero.mp hzero)
      refine Eq.trans (if_neg ?_) (if_neg ?_).symm
      · simp [hfraction]
      · rintro ⟨-, hle⟩
        omega

theorem ofNumber_eq {row : List Char} (hrow : ∀ c ∈ row, isNumeric c = true) :
    ofNumber row = classify row := by
  rw [ofNumber, ofText?_row hrow, classify, if_pos (List.all_eq_true.mpr hrow)]
  by_cases h : row.any Char.isDigit ∧ row.count '.' ≤ 1
  · rw [if_pos h, if_pos h]
  · rw [if_neg h, if_neg h]

/-! ## Names and symbols -/

theorem lookup_cons_elim (table : List (List Char × Token)) (word piece : List Char) (token : Token)
    (other : Except EvalError Token) :
    (((word, token) :: table).lookup piece).elim other .ok =
      if piece = word then .ok token else (table.lookup piece).elim other .ok := by
  rw [List.lookup_cons]
  by_cases h : piece = word
  · rw [if_pos h, beq_iff_eq.mpr h]
    rfl
  · rw [if_neg h, beq_eq_false_iff_ne.mpr h]

theorem classify_name {name : List Char} (hne : name ≠ []) (hname : ∀ c ∈ name, c.isAlpha = true) :
    classify name =
      (names.lookup name).elim (.error (.unknownIdentifier (String.ofList name))) .ok := by
  obtain ⟨c, hc⟩ := List.exists_mem_of_ne_nil name hne
  have hrow : ¬ name.all isNumeric = true := by
    intro hall
    have hnumeric := List.all_eq_true.mp hall c hc
    rw [not_isNumeric_of_isAlpha (hname c hc)] at hnumeric
    cases hnumeric
  rw [classify, if_neg hrow, if_pos (List.all_eq_true.mpr hname)]

theorem classify_symbol {c : Char} (hc : IsSymbol c) :
    classify [c] =
      (symbols.lookup [c]).elim (.error (.unexpectedToken (String.ofList [c]))) .ok := by
  have hrow : ¬ [c].all isNumeric = true := by simp [hc.numeric]
  have hname : ¬ [c].all Char.isAlpha = true := by simp [hc.alpha]
  rw [classify, if_neg hrow, if_neg hname]

theorem ofName_eq {name : List Char} (hne : name ≠ []) (hname : ∀ c ∈ name, c.isAlpha = true) :
    ofName name = classify name := by
  rw [classify_name hne hname, names]
  simp only [lookup_cons_elim, ofName, String.ofList_eq]
  rfl

theorem ofSymbol_eq {c : Char} (hc : IsSymbol c) : ofSymbol c = classify [c] := by
  rw [classify_symbol hc, symbols]
  simp only [lookup_cons_elim, List.cons.injEq, and_true]
  unfold ofSymbol
  split
  iterate 11 rfl
  simp_all

/-! ## Kinds -/

theorem charKind_blank_iff {c : Char} : charKind c = .blank ↔ Text.isBlank c = true := by
  unfold charKind
  split_ifs with hblank <;> simp_all

theorem charKind_numeric_iff {c : Char} : charKind c = .numeric ↔ isNumeric c = true := by
  constructor
  · intro h
    unfold charKind at h
    split_ifs at h with hblank hnumeric
    exact hnumeric
  · intro h
    have hblank := not_isBlank_of_isNumeric h
    rw [charKind, hblank, if_neg Bool.false_ne_true]
    exact if_pos h

theorem charKind_letter_iff {c : Char} : charKind c = .letter ↔ c.isAlpha = true := by
  constructor
  · intro h
    unfold charKind at h
    split_ifs at h with hblank hnumeric halpha
    exact halpha
  · intro h
    have hblank := not_isBlank_of_isAlpha h
    have hnumeric := not_isNumeric_of_isAlpha h
    rw [charKind, hblank, if_neg Bool.false_ne_true, h]
    exact if_neg (ne_true_of_eq_false hnumeric)

theorem charKind_symbol_iff {c : Char} : charKind c = .symbol ↔ IsSymbol c := by
  constructor
  · intro h
    have hblank : Text.isBlank c = false := by
      rw [Bool.eq_false_iff, ne_eq, ← charKind_blank_iff, h]
      decide
    have hnumeric : isNumeric c = false := by
      rw [Bool.eq_false_iff, ne_eq, ← charKind_numeric_iff, h]
      decide
    have halpha : c.isAlpha = false := by
      rw [Bool.eq_false_iff, ne_eq, ← charKind_letter_iff, h]
      decide
    exact ⟨hblank, hnumeric, halpha⟩
  · intro h
    cases hkind : charKind c with
    | blank => exact absurd (charKind_blank_iff.mp hkind) (ne_true_of_eq_false h.blank)
    | numeric => exact absurd (charKind_numeric_iff.mp hkind) (ne_true_of_eq_false h.numeric)
    | letter => exact absurd (charKind_letter_iff.mp hkind) (ne_true_of_eq_false h.alpha)
    | symbol => rfl

/-! ## Segments one by one -/

variable {rest piece : List Char} {result : Except EvalError Token}

/-- A row of one kind is a segment where another kind follows. -/
theorem segments_row (kind : CharKind) (hkind : kind ≠ .symbol) {row : List Char} (hne : row ≠ [])
    (hrow : ∀ c ∈ row, charKind c = kind) (hstop : ∀ c ∈ rest.head?, charKind c ≠ kind) :
    segments (row ++ rest) = row :: segments rest := by
  have hchain : row.IsChain fun c next => runsOn c next = true := by
    refine List.Pairwise.isChain (List.pairwise_of_forall_mem_list fun c hc next hnext => ?_)
    simp [runsOn, hrow c hc, hrow next hnext, hkind]
  rw [segments, List.splitBy_append, List.splitBy_of_isChain hne hchain]
  · rfl
  · intro c hc next hnext
    have hc := hrow c (List.mem_of_mem_getLast? hc)
    have hnext := hstop next hnext
    rw [runsOn, hc, beq_eq_false_iff_ne.mpr hnext.symm, Bool.false_and]

theorem segments_symbol {c : Char} (hc : charKind c = .symbol) (rest : List Char) :
    segments (c :: rest) = [c] :: segments rest := by
  rw [← List.singleton_append, segments, List.splitBy_append]
  · rfl
  · intro d hd next _
    obtain rfl := Option.some.inj hd
    simp [runsOn, hc]

theorem IsPiece.segments_append (h : IsPiece rest piece result) :
    segments (piece ++ rest) = piece :: segments rest := by
  cases h with
  | number all stop =>
    refine segments_row .numeric (by decide) (List.cons_ne_nil _ _) ?_ ?_
    · exact fun c hc => charKind_numeric_iff.mpr (all c hc)
    · exact fun c hc hkind => absurd (charKind_numeric_iff.mp hkind) (by simp [stop c hc])
  | name all stop =>
    refine segments_row .letter (by decide) (List.cons_ne_nil _ _) ?_ ?_
    · exact fun c hc => charKind_letter_iff.mpr (all c hc)
    · exact fun c hc hkind => absurd (charKind_letter_iff.mp hkind) (by simp [stop c hc])
  | symbol blank numeric alpha =>
    exact segments_symbol (charKind_symbol_iff.mpr ⟨blank, numeric, alpha⟩) rest

/-- A piece is read by itself. -/
theorem IsPiece.eq_classify (h : IsPiece rest piece result) : result = classify piece := by
  cases h with
  | number all stop => exact ofNumber_eq all
  | name all stop => exact ofName_eq (List.cons_ne_nil _ _) all
  | symbol blank numeric alpha => exact ofSymbol_eq ⟨blank, numeric, alpha⟩

/-- A piece begins with a character that is not blank. -/
theorem IsPiece.head (h : IsPiece rest piece result) :
    ∃ c more, piece = c :: more ∧ Text.isBlank c = false := by
  cases h with
  | @number c more all stop =>
    exact ⟨c, more, rfl, not_isBlank_of_isNumeric (all c List.mem_cons_self)⟩
  | @name c more all stop =>
    exact ⟨c, more, rfl, not_isBlank_of_isAlpha (all c List.mem_cons_self)⟩
  | @symbol c blank numeric alpha => exact ⟨c, [], rfl, blank⟩

/-- Blanks add no piece. -/
theorem pieces_blanks {blanks : List Char} (hblanks : ∀ c ∈ blanks, Text.isBlank c = true)
    (hstop : ∀ c ∈ rest.head?, Text.isBlank c = false) :
    pieces (blanks ++ rest) = pieces rest := by
  by_cases hne : blanks = []
  · rw [hne, List.nil_append]
  · rw [pieces, segments_row .blank (by decide) hne]
    · rw [List.filter_cons_of_neg (by simpa using hblanks)]
      rfl
    · exact fun c hc => charKind_blank_iff.mpr (hblanks c hc)
    · exact fun c hc hkind => absurd (charKind_blank_iff.mp hkind) (by simp [hstop c hc])

theorem IsPiece.pieces_append (h : IsPiece rest piece result) :
    pieces (piece ++ rest) = piece :: pieces rest := by
  rw [pieces, h.segments_append, List.filter_cons_of_pos]
  · rfl
  · obtain ⟨c, more, rfl, hc⟩ := h.head
    simp [hc]

/-! ## What a segment is -/

/-- Characters that run on are of one kind, and not symbols. -/
theorem charKind_of_isChain {c : Char} {more : List Char}
    (h : (c :: more).IsChain fun c next => runsOn c next = true) :
    (charKind c = .symbol → more = []) ∧ ∀ d ∈ more, charKind d = charKind c := by
  induction more generalizing c with
  | nil => exact ⟨fun _ => rfl, by simp⟩
  | cons d more ih =>
    rw [List.isChain_cons_cons, runsOn, Bool.and_eq_true, beq_iff_eq, bne_iff_ne] at h
    obtain ⟨⟨hkind, hne⟩, hmore⟩ := h
    refine ⟨fun hc => absurd hc hne, List.forall_mem_cons.mpr ⟨hkind.symm, fun e he => ?_⟩⟩
    rw [hkind]
    exact (ih hmore).2 e he

theorem symbol_of_not_runsOn {c next : Char} (hkind : charKind c = charKind next)
    (h : runsOn c next = false) : charKind next = .symbol := by
  rw [runsOn, hkind, beq_self_eq_true, Bool.true_and, bne_eq_false_iff_eq] at h
  exact h

/-- Over the end of a segment no character runs on. -/
theorem runsOn_seam {text : List Char} {front back : List (List Char)}
    (h : segments text = front ++ back) : text = front.flatten ++ back.flatten ∧
      ∀ c ∈ front.flatten.getLast?, ∀ d ∈ back.flatten.head?, runsOn c d = false := by
  constructor
  · rw [← List.flatten_append, ← h, segments, List.flatten_splitBy]
  · have hseams := List.isChain_getLast_head_splitBy runsOn text
    rw [← segments, h] at hseams
    rcases List.eq_nil_or_concat' front with rfl | ⟨front, segment, rfl⟩
    · nofun
    rcases back with - | ⟨next, back⟩
    · nofun
    rw [List.append_assoc, List.singleton_append] at hseams
    obtain ⟨hsegment, hnext, hseam⟩ := (List.isChain_append_cons_cons.mp hseams).2.1
    intro c hc d hd
    rw [List.flatten_append, List.flatten_singleton,
      List.getLast?_append_of_ne_nil _ hsegment, List.getLast?_eq_some_getLast hsegment] at hc
    rw [List.flatten_cons, List.head?_append_of_ne_nil _ hnext, List.head?_eq_some_head hnext] at hd
    obtain rfl := Option.some.inj hc
    obtain rfl := Option.some.inj hd
    exact hseam

/-- A segment is a symbol, or all that characters of one kind have at its place. -/
theorem isRun_of_mem_segments {text segment : List Char} (h : segment ∈ segments text) :
    ∃ before after, text = before ++ segment ++ after ∧
      ((∃ c, segment = [c] ∧ IsSymbol c) ∨
        ∃ kind, kind ≠ .symbol ∧ IsRun (charKind · == kind) before segment after) := by
  obtain ⟨front, back, hsplit⟩ := List.append_of_mem h
  obtain ⟨htext, hbefore⟩ := runsOn_seam hsplit
  obtain ⟨-, hafter⟩ := runsOn_seam (hsplit.trans (List.append_cons front segment back))
  rw [List.flatten_cons, ← List.append_assoc] at htext
  refine ⟨front.flatten, back.flatten, htext, ?_⟩
  obtain ⟨c, more, rfl⟩ := List.exists_cons_of_ne_nil (List.ne_nil_of_mem_splitBy h)
  obtain ⟨hsymbol, hmore⟩ := charKind_of_isChain (List.isChain_of_mem_splitBy h)
  by_cases hc : charKind c = .symbol
  · exact .inl ⟨c, by rw [hsymbol hc], charKind_symbol_iff.mp hc⟩
  · have hall : ∀ d ∈ c :: more, charKind d = charKind c :=
      List.forall_mem_cons.mpr ⟨rfl, hmore⟩
    refine .inr ⟨charKind c, hc, fun d hd => beq_iff_eq.mpr (hall d hd), ?_, ?_⟩
    · intro d hd
      exact beq_eq_false_iff_ne.mpr fun hkind =>
        hc (symbol_of_not_runsOn hkind (hbefore d hd c rfl))
    · intro d hd
      have hne := List.cons_ne_nil c more
      have hlast := hall _ (List.getLast_mem hne)
      have hseam := hafter ((c :: more).getLast hne) (by
        rw [List.flatten_append, List.flatten_singleton, List.getLast?_append_of_ne_nil _ hne]
        exact List.getLast?_eq_some_getLast hne) d hd
      refine beq_eq_false_iff_ne.mpr fun hkind => hc ?_
      exact hkind ▸ symbol_of_not_runsOn (hlast.trans hkind.symm) hseam

/-! ## Reading -/

/-- **A text is read piece by piece**, each piece as what it is by itself. -/
theorem scan_eq (text : List Char) : scan text = (pieces text).map classify := by
  refine scan_induction (P := fun text items => items = (pieces text).map classify) ?_ ?_ text
  · intro blanks hblanks
    have hnone : pieces (blanks ++ []) = pieces [] := pieces_blanks hblanks (by simp)
    rw [List.append_nil] at hnone
    rw [hnone]
    rfl
  · intro blanks piece rest result hblanks hpiece ih
    obtain ⟨c, more, hcons, hc⟩ := hpiece.head
    have hstop : ∀ d ∈ (piece ++ rest).head?, Text.isBlank d = false := by
      intro d hd
      rw [hcons] at hd
      obtain rfl : c = d := Option.some.inj hd
      exact hc
    rw [List.append_assoc, pieces_blanks hblanks hstop, hpiece.pieces_append, List.map_cons, ← ih,
      hpiece.eq_classify]

theorem mapM_id_eq_error {items : List (Except EvalError Token)} {cause : EvalError} :
    items.mapM id = .error cause ↔ ∃ before after, items = before ++ .error cause :: after ∧
      ∀ item ∈ before, ∃ token, item = .ok token := by
  induction items with
  | nil => simp [pure, Except.pure]
  | cons item items ih =>
    have hpure : ∀ {tokens : List Token}, (pure tokens : Except EvalError _) ≠ .error cause := nofun
    rw [List.mapM_cons, EvalError.bind_eq_error]
    simp only [EvalError.bind_eq_error, hpure, and_false, exists_false, or_false, ih, id]
    constructor
    · rintro (rfl | ⟨token, rfl, before, after, rfl, hbefore⟩)
      · exact ⟨[], items, rfl, by simp⟩
      · exact ⟨.ok token :: before, after, rfl, List.forall_mem_cons.mpr ⟨⟨token, rfl⟩, hbefore⟩⟩
    · rintro ⟨before, after, hitems, hbefore⟩
      cases before with
      | nil => exact .inl (List.cons.inj hitems).1
      | cons first before =>
        obtain ⟨rfl, hrest⟩ := List.cons.inj hitems
        obtain ⟨⟨token, hfirst⟩, hothers⟩ := List.forall_mem_cons.mp hbefore
        exact .inr ⟨token, hfirst, before, after, hrest, hothers⟩

/-- What is wrong with a text is what is wrong with its first piece that is no token. -/
theorem tokens_eq_error_iff {text : List Char} {cause : EvalError} :
    tokens text = .error cause ↔ ∃ before piece after, pieces text = before ++ piece :: after ∧
      (∀ other ∈ before, ∃ token, classify other = .ok token) ∧
        classify piece = .error cause := by
  rw [tokens, mapM_id_eq_error, scan_eq]
  constructor
  · rintro ⟨items, results, hsplit, hitems⟩
    obtain ⟨before, others, hpieces, rfl, hothers⟩ := List.map_eq_append_iff.mp hsplit
    obtain ⟨piece, after, rfl, hpiece, -⟩ := List.map_eq_cons_iff.mp hothers
    refine ⟨before, piece, after, hpieces, fun other hother => ?_, hpiece⟩
    exact hitems _ (List.mem_map_of_mem hother)
  · rintro ⟨before, piece, after, hpieces, hbefore, hpiece⟩
    refine ⟨before.map classify, after.map classify, ?_, fun item hitem => ?_⟩
    · rw [hpieces, List.map_append, List.map_cons, hpiece]
    · obtain ⟨other, hother, rfl⟩ := List.mem_map.mp hitem
      exact hbefore other hother

end PocketCalculator.Token
