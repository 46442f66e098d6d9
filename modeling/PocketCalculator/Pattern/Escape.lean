import PocketCalculator.Pattern
import PocketCalculator.Text.Hex

/-!
# Escapes

What a backslash and the letters after it stand for. ASCII characters that are neither letters nor
digits stand for themselves, but for the angle brackets.
-/

namespace PocketCalculator.Pattern

inductive Escape where
  | char (c : Char)
  /-- A character that is written as an octet. -/
  | octet (c : Char)
  /-- The digits, the blanks or the characters of words, or all that are none of them. -/
  | kind (isNegated : Bool)
  /-- The start or the end of the text. -/
  | edge
  | wordEdge
  deriving DecidableEq, Repr

namespace Escape

/-- What a single character after a backslash stands for. -/
def ofChar? : Char → Option Escape
  | 'd' | 's' | 'w' => some (.kind false)
  | 'D' | 'S' | 'W' => some (.kind true)
  | 'A' | 'z' => some .edge
  | 'b' | 'B' | '<' | '>' => some .wordEdge
  | 'a' => some (.char '\x07')
  | 'f' => some (.char '\x0C')
  | 'n' => some (.char '\n')
  | 'r' => some (.char '\r')
  | 't' => some (.char '\t')
  | 'v' => some (.char '\x0B')
  | c => if c.toNat < 0x80 && !c.isAlphanum then some (.char c) else none

/-- The number that so many hexadecimal digits give after those that gave `n`, and the text after
them. -/
def readHex? (f : Flags) (n : Nat) : Nat → List Char → Option (Nat × List Char)
  | 0, text => some (n, text)
  | count + 1, text =>
    match f.skip text with
    | [] => none
    | c :: rest => do readHex? f (n * 16 + (← Text.hexValue? c)) count rest

/-- The character whose code point is written in so many digits. -/
def readChar? (f : Flags) (count : Nat) (text : List Char) : Option (Char × List Char) := do
  let (n, rest) ← readHex? f 0 count text
  if n.isValidChar then some (Char.ofNat n, rest) else none

def read? (f : Flags) : List Char → Option (Escape × List Char)
  | [] => none
  | 'x' :: rest => (readChar? f 2 rest).map fun (c, rest) => (.octet c, rest)
  | 'u' :: rest => (readChar? f 4 rest).map fun (c, rest) => (.char c, rest)
  | 'U' :: rest => (readChar? f 8 rest).map fun (c, rest) => (.char c, rest)
  | c :: rest => (ofChar? c).map (·, rest)

end Escape

end PocketCalculator.Pattern
