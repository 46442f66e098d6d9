import PocketCalculator.Proofs.Buffer.Positions
import PocketCalculator.Proofs.Token.Segments

/-!
# Reading with a place in the text

The reader again, as one that keeps the whole text and a place in it, counted in octets, where a cut
through a character or behind the end of the text is a failure (`Checked.next`). Asked for one piece
after the other it always comes to the end of the text and never fails, and what it gives is what
`Token.scan` gives (`yields_scan`). `reads_pieces` puts this together with what the pieces of a text
are.
-/

namespace PocketCalculator

namespace Checked

/-- The text from a place on. -/
def fromPlace (text : List Char) (place : Nat) : Option (List Char) :=
  if isBoundary place text then some (Text.fromPlace place text) else none

/-- The text up to a place. -/
def before (text : List Char) (place : Nat) : Option (List Char) :=
  if isBoundary place text then some (Text.before place text) else none

/-- The characters with `p` at a place, as far as they reach, and the place behind them. -/
def takeRow (p : Char → Bool) (text : List Char) (place : Nat) : Option (List Char × Nat) := do
  let rest ← fromPlace text place
  let row ← before rest (Text.octets (rest.takeWhile p))
  some (row, place + Text.octets (rest.takeWhile p))

/-- The piece that begins at a place, and the place behind it. There is none at the end. -/
def pieceAt (text : List Char) (place : Nat) : Option (Option (Except EvalError Token) × Nat) := do
  let rest ← fromPlace text place
  match rest.head? with
  | none => some (none, place)
  | some c =>
    if Token.isNumeric c then
      let (row, place) ← takeRow Token.isNumeric text place
      some (some (Token.ofNumber row), place)
    else if c.isAlpha then
      let (row, place) ← takeRow Char.isAlpha text place
      some (some (Token.ofName row), place)
    else some (some (Token.ofSymbol c), place + c.utf8Size)

/-- The next piece from a place on, with any blanks in front of it. -/
def next (text : List Char) (place : Nat) : Option (Option (Except EvalError Token) × Nat) := do
  let (_, place) ← takeRow Text.isBlank text place
  pieceAt text place

/-- Asked for pieces from a place on, the reader gives these and then says that there are no more. -/
inductive Yields (text : List Char) : Nat → List (Except EvalError Token) → Prop
  | done {place stop : Nat} (h : next text place = some (none, stop)) : Yields text place []
  | piece {place stop : Nat} {item : Except EvalError Token} {items : List (Except EvalError Token)}
    (h : next text place = some (some item, stop)) (rest : Yields text stop items) :
    Yields text place (item :: items)

theorem Yields.unique {text : List Char} {place : Nat} {items others : List (Except EvalError Token)}
    (h : Yields text place items) (hothers : Yields text place others) : others = items := by
  induction h generalizing others with
  | done h =>
    cases hothers with
    | done _ => rfl
    | piece h' _ => cases h.symm.trans h'
  | piece h _ ih =>
    cases hothers with
    | done h' => cases h.symm.trans h'
    | piece h' rest' =>
      cases h.symm.trans h'
      rw [ih rest']

/-! ## Places behind what is read -/

theorem octets_append (front back : List Char) :
    Text.octets (front ++ back) = Text.octets front + Text.octets back := by
  induction front with
  | nil => exact (Nat.zero_add _).symm
  | cons c front ih => rw [List.cons_append, Text.octets_cons, ih, Text.octets_cons, Nat.add_assoc]

theorem fromPlace_octets (front back : List Char) :
    fromPlace (front ++ back) (Text.octets front) = some back := by
  rw [fromPlace, if_pos (isBoundary_octets front back), Text.fromPlace_octets_append]

theorem before_octets (front back : List Char) :
    before (front ++ back) (Text.octets front) = some front := by
  rw [before, if_pos (isBoundary_octets front back), Text.before_octets_append]

theorem takeRow_octets {p : Char → Bool} {row back : List Char} (hrow : ∀ c ∈ row, p c = true)
    (hstop : ∀ c ∈ back.head?, p c = false) (front : List Char) :
    takeRow p (front ++ (row ++ back)) (Text.octets front) =
      some (row, Text.octets (front ++ row)) := by
  rw [takeRow, fromPlace_octets, Option.bind_eq_bind, Option.bind_some,
    (takeWhile_row hrow hstop).1, before_octets, Option.bind_some, octets_append]

section Next

variable {rest piece : List Char} {item : Except EvalError Token}

/-- A piece is taken whole, and the place behind it is behind its last character. -/
theorem pieceAt_octets (h : Token.IsPiece rest piece item) (front : List Char) :
    pieceAt (front ++ (piece ++ rest)) (Text.octets front) =
      some (some item, Text.octets (front ++ piece)) := by
  rw [pieceAt, fromPlace_octets, Option.bind_eq_bind, Option.bind_some]
  cases h with
  | @number c more all stop =>
    have hc := all c List.mem_cons_self
    rw [takeRow_octets all stop]
    simp [hc]
  | @name c more all stop =>
    have hc := all c List.mem_cons_self
    rw [takeRow_octets all stop]
    simp [hc, Token.not_isNumeric_of_isAlpha hc]
  | @symbol c blank numeric alpha => simp [numeric, alpha, octets_append]

theorem next_octets {blanks : List Char} (hblanks : ∀ c ∈ blanks, Text.isBlank c = true)
    (h : Token.IsPiece rest piece item) (front : List Char) :
    next (front ++ (blanks ++ (piece ++ rest))) (Text.octets front) =
      some (some item, Text.octets (front ++ blanks ++ piece)) := by
  have hstop : ∀ c ∈ (piece ++ rest).head?, Text.isBlank c = false := by
    obtain ⟨c, more, rfl, hc⟩ := h.head
    intro d hd
    obtain rfl : c = d := Option.some.inj hd
    exact hc
  rw [next, takeRow_octets hblanks hstop, Option.bind_eq_bind, Option.bind_some, ← List.append_assoc]
  exact pieceAt_octets h (front ++ blanks)

theorem next_end {blanks : List Char} (hblanks : ∀ c ∈ blanks, Text.isBlank c = true)
    (front : List Char) :
    next (front ++ blanks) (Text.octets front) = some (none, Text.octets (front ++ blanks)) := by
  have hstop : ∀ c ∈ ([] : List Char).head?, Text.isBlank c = false := by simp
  have hrow := takeRow_octets hblanks hstop front
  have hend := fromPlace_octets (front ++ blanks) []
  rw [List.append_nil] at hrow hend
  rw [next, hrow, Option.bind_eq_bind, Option.bind_some]
  show pieceAt (front ++ blanks) (Text.octets (front ++ blanks)) = _
  rw [pieceAt, hend]
  rfl

end Next

/-- **The reader never fails and comes to the end.** -/
theorem yields_scan (text : List Char) : ∀ front,
    Yields (front ++ text) (Text.octets front) (Token.scan text) := by
  refine Token.scan_induction (P := fun text items => ∀ front,
    Yields (front ++ text) (Text.octets front) items) ?_ ?_ text
  · intro blanks hblanks front
    exact .done (next_end hblanks front)
  · intro blanks piece rest item hblanks hpiece ih front
    have hrest := ih (front ++ blanks ++ piece)
    have htext : front ++ (blanks ++ piece ++ rest) = front ++ blanks ++ piece ++ rest := by
      simp only [List.append_assoc]
    rw [htext]
    refine .piece ?_ hrest
    rw [← htext, List.append_assoc]
    exact next_octets hblanks hpiece front

end Checked

namespace Token

/-- **A text is read in its longest pieces and to its end.** -/
theorem reads_pieces (text : List Char) :
    (segments text).flatten = text ∧
      (∀ items, Checked.Yields text 0 items ↔ items = (pieces text).map classify) ∧
      scan text = (pieces text).map classify ∧
      (∀ list, tokens text = .ok list ↔ (pieces text).map classify = list.map .ok) ∧
      ∀ cause, tokens text = .error cause ↔
        ∃ before piece after, pieces text = before ++ piece :: after ∧
          (∀ other ∈ before, ∃ token, classify other = .ok token) ∧
            classify piece = .error cause := by
  have hyields : Checked.Yields text 0 ((pieces text).map classify) :=
    scan_eq text ▸ Checked.yields_scan text []
  refine ⟨List.flatten_splitBy .., fun items => ⟨fun h => hyields.unique h, ?_⟩, scan_eq text,
    fun list => ?_, fun cause => tokens_eq_error_iff⟩
  · rintro rfl
    exact hyields
  · rw [tokens_eq_ok_iff, scan_eq]

end Token

end PocketCalculator
