/-!
# Glyphs of the operators

A keypad shows typographic operators, an expression is written in ASCII ones. `Glyph.canonical`
sends the first kind to the second and leaves everything else alone; it changes nothing the second
time (`Glyph.canonical_canonical`).
-/

namespace PocketCalculator.Glyph

/-- The ASCII spelling of an operator glyph. The division sign becomes a slash, the three
multiplication glyphs an asterisk, and the minus sign, the two dashes and the small and full-width
hyphens a hyphen. -/
def canonical (c : Char) : Char :=
  match c with
  | '÷' => '/'
  | '×' | '\u00B7' | '\u2217' => '*'
  | '\u2212' | '\u2013' | '\u2012' | '\uFE63' | '\uFF0D' => '-'
  | other => other

/-- Every glyph of a text in its ASCII spelling. -/
def canonicalText (text : List Char) : List Char :=
  text.map canonical

/-- A label that is a single operator glyph in its ASCII spelling; any other label is kept. -/
def canonicalLabel : List Char → List Char
  | [c] => [canonical c]
  | label => label

/-- The operators that stand between two operands. The hyphen is also a sign. -/
def isOperator (c : Char) : Bool :=
  c == '+' || c == '-' || c == '*' || c == '/' || c == '^'

/-! ## Small facts -/

theorem canonical_of_toNat_lt {c : Char} (h : c.toNat < 0x80) : canonical c = c := by
  unfold canonical
  split <;> first | rfl | (exfalso; revert h; decide)

theorem canonical_eq (c : Char) :
    canonical c = c ∨ canonical c = '/' ∨ canonical c = '*' ∨ canonical c = '-' := by
  unfold canonical
  split <;> simp

@[simp] theorem canonical_canonical (c : Char) : canonical (canonical c) = canonical c := by
  rcases canonical_eq c with h | h | h | h <;> rw [h] <;> first | exact h | rfl

theorem canonical_of_isDigit {c : Char} (h : c.isDigit = true) : canonical c = c := by
  unfold canonical
  split <;> first | rfl | exact absurd h (by decide)

/-- No glyph of an operator is spelled as a digit. -/
theorem canonical_eq_of_isDigit {c : Char} (h : (canonical c).isDigit = true) :
    canonical c = c := by
  rcases canonical_eq c with he | he | he | he
  · exact he
  all_goals
    rw [he] at h
    exact absurd h (by decide)

theorem canonicalText_of_forall {text : List Char} (h : ∀ c ∈ text, canonical c = c) :
    canonicalText text = text :=
  (List.map_congr_left h).trans (List.map_id text)

/-- ASCII text is in ASCII spelling. -/
theorem canonicalText_eq {text : List Char} (h : ∀ c ∈ text, c.toNat < 0x80) :
    canonicalText text = text :=
  canonicalText_of_forall fun c hc => canonical_of_toNat_lt (h c hc)

@[simp] theorem canonicalText_canonicalText (text : List Char) :
    canonicalText (canonicalText text) = canonicalText text := by
  simp [canonicalText]

end PocketCalculator.Glyph
