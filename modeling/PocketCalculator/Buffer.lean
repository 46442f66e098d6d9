import PocketCalculator.Glyph

/-!
# The entry buffer

The text that is being keyed in. It is never empty: where nothing would be left it holds the single
zero. Positions count characters; one past the end is the end. Ranges may lie outside the text or
be reversed, and are clamped.

Around a position the text is seen as what stands before it and what stands after it, so a run of
operators, or an operand free of them, is what both sides have of it.
-/

namespace PocketCalculator

/-- The characters of an entry, at least one of them. -/
structure Buffer where
  chars : List Char
  ne_nil : chars ≠ []
  deriving DecidableEq

namespace Buffer

/-- The buffer in which nothing has been keyed in. -/
def zero : Buffer :=
  ⟨['0'], by decide⟩

/-- The buffer with a given text, or zero for no text. -/
def ofChars (chars : List Char) : Buffer :=
  if h : chars = [] then zero else ⟨chars, h⟩

def length (b : Buffer) : Nat :=
  b.chars.length

def isZero (b : Buffer) : Bool :=
  b.chars == ['0']

/-! ## Single characters -/

def charAt? (b : Buffer) (pos : Nat) : Option Char :=
  b.chars[pos]?

def charBefore? (b : Buffer) : Nat → Option Char
  | 0 => none
  | pos + 1 => b.chars[pos]?

def last? (b : Buffer) : Option Char :=
  b.chars.getLast?

def endsWithOperator (b : Buffer) : Bool :=
  b.last?.any Glyph.isOperator

/-! ## Changing a range -/

/-- Puts `text` in the place of a range. The second component is the position after the new text. -/
def splice (b : Buffer) (start stop : Nat) (text : List Char) : Buffer × Nat :=
  let stop := min stop b.length
  -- A reversed range is the empty one where it stops.
  let start := min start stop
  let chars := b.chars.take start ++ text ++ b.chars.drop stop
  (ofChars chars, if chars = [] then zero.length else start + text.length)

/-- Puts `text` in at a position. The second component is the position after it. -/
def insert (b : Buffer) (pos : Nat) (text : List Char) : Buffer × Nat :=
  b.splice pos pos text

/-- Takes a range out, if there is anything in it. -/
def erase? (b : Buffer) (start stop : Nat) : Option Buffer :=
  if start < min stop b.length then some (b.splice start stop []).1 else none

/-! ## Runs of operators and operands -/

/-- How far characters with `p` reach back from a position, the nearest first. -/
def runBefore (b : Buffer) (p : Char → Bool) (pos : Nat) : List Char :=
  (b.chars.take pos).reverse.takeWhile p

/-- How far characters with `p` reach on from a position. -/
def runAfter (b : Buffer) (p : Char → Bool) (pos : Nat) : List Char :=
  (b.chars.drop pos).takeWhile p

/-- Where the run of characters with `p` that touches a position starts. -/
def runStart (b : Buffer) (p : Char → Bool) (pos : Nat) : Nat :=
  min pos b.length - (b.runBefore p pos).length

/-- Where the run of characters with `p` that touches a position stops. -/
def runStop (b : Buffer) (p : Char → Bool) (pos : Nat) : Nat :=
  min pos b.length + (b.runAfter p pos).length

/-- Where the run of operators that ends at a position starts. -/
def operatorsStart (b : Buffer) (pos : Nat) : Nat :=
  b.runStart Glyph.isOperator pos

/-- Where the run of operators that starts at a position stops. -/
def operatorsStop (b : Buffer) (pos : Nat) : Nat :=
  b.runStop Glyph.isOperator pos

def isSegmentChar (c : Char) : Bool :=
  !Glyph.isOperator c

/-- Where the operand around a position starts: after the nearest operator before it. -/
def segmentStart (b : Buffer) (pos : Nat) : Nat :=
  b.runStart isSegmentChar pos

/-- Where the operand around a position stops: before the nearest operator after it. -/
def segmentStop (b : Buffer) (pos : Nat) : Nat :=
  b.runStop isSegmentChar pos

/-- The decimal points in the operand around a position. -/
def segmentPoints (b : Buffer) (pos : Nat) : Nat :=
  (b.runBefore isSegmentChar pos).count '.' + (b.runAfter isSegmentChar pos).count '.'

def segmentHasPoint (b : Buffer) (pos : Nat) : Bool :=
  0 < b.segmentPoints pos

/-! ## The shape of an entry -/

/-- Whether a text may follow `points` points in the operand and `operators` operators in the run
just before it. Only a minus may follow an operator at once, and nothing but an operand may follow
that minus. -/
def continuesWell (points operators : Nat) : List Char → Bool
  | [] => true
  | c :: rest =>
    if Glyph.isOperator c then
      (operators == 0 || (operators == 1 && c == '-')) && continuesWell 0 (operators + 1) rest
    else if c == '.' then points == 0 && continuesWell 1 0 rest
    else continuesWell points 0 rest

/-- No operand has two points, and operators stand alone or are followed by a sign. -/
def isWellFormed (b : Buffer) : Bool :=
  continuesWell 0 0 b.chars

/-! ## The number at the end -/

/-- The longest end of a text that consists of digits and at most one point. -/
def numberSuffix (text : List Char) : List Char :=
  let back := text.reverse
  let digits := back.takeWhile Char.isDigit
  match back.dropWhile Char.isDigit with
  | '.' :: more => (digits ++ '.' :: more.takeWhile Char.isDigit).reverse
  | _ => digits.reverse

/-- Where the number at the end of the text starts, if it ends with one. -/
def trailingNumber? (b : Buffer) : Option Nat :=
  let suffix := numberSuffix b.chars
  if suffix.any Char.isDigit then some (b.length - suffix.length) else none

/-! ## Small facts -/

theorem length_pos (b : Buffer) : 0 < b.length :=
  List.length_pos_iff.2 b.ne_nil

theorem chars_ofChars {chars : List Char} (h : chars ≠ []) : (ofChars chars).chars = chars := by
  simp [ofChars, h]

@[simp] theorem ofChars_nil : ofChars [] = zero := rfl

@[simp] theorem ofChars_chars (b : Buffer) : ofChars b.chars = b := by
  simp [ofChars, b.ne_nil]

/-- The position after a splice lies within the new text. -/
theorem splice_snd_le (b : Buffer) (start stop : Nat) (text : List Char) :
    (b.splice start stop text).2 ≤ (b.splice start stop text).1.length := by
  unfold splice
  simp only
  split
  · next h => rw [h]; exact Nat.le_refl _
  · next h =>
    refine Nat.le_trans ?_ (Nat.le_of_eq (congrArg List.length (chars_ofChars h)).symm)
    simp only [List.length_append, List.length_take]
    have : b.length = b.chars.length := rfl
    omega

end Buffer

end PocketCalculator
