import PocketCalculator.Keypad.Event

/-!
# Keys of a keyboard

The keys that a keyboard sends, and what each asks for. The delete key needs to know where the
cursor is, because it deletes the character there.
-/

namespace PocketCalculator

inductive Key where
  | char (c : Char)
  | left
  | right
  | home
  | toEnd
  | enter
  | backspace
  | delete
  | escape
  deriving DecidableEq, Repr

namespace Key

def ofAscii? (code : Nat) : Option Key :=
  if code = 0x1B then some escape
  else if code = 0x08 || code = 0x7F then some backspace
  else if code = 0x0D || code = 0x0A then some enter
  else if 0x20 ≤ code && code < 0x7F then some (char (Char.ofNat code))
  else none

def charAction? (c : Char) : Option Action :=
  match Glyph.canonical c with
  | '=' => some .evaluate
  | '.' => some (.edit .point)
  | '%' => some (.edit .percent)
  | '(' | ')' => some (.edit .bracket)
  | c => Action.ofChar? c

/-- What a key asks for with the cursor at a position. -/
def action? (key : Key) (cursor : Nat) : Option Action :=
  match key with
  | enter => some .evaluate
  | escape => some (.edit .clear)
  | backspace => some (.edit .backspace)
  | delete => some (.edit (.delete cursor (cursor + 1)))
  | left => some (.edit (.move .left))
  | right => some (.edit (.move .right))
  | home => some (.edit (.move .home))
  | toEnd => some (.edit (.move .toEnd))
  | char c => charAction? c

end Key

end PocketCalculator
