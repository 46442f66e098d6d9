import PocketCalculator.Text.Blank

/-!
# Patterns

What the parts of a pattern have in common: the flags that say how a part is read, the faults that a
pattern may have, and how deep its parts lie inside each other.

Patterns are compiled to tables of octets, and no properties of characters beyond ASCII are at hand.
So letter case can be ignored only where octets are matched and not characters; and what matches
octets may match none that is a part of a character.
-/

namespace PocketCalculator.Pattern

inductive Fault where
  /-- It is no pattern, or what it asks for is not at hand. -/
  | unusable
  /-- It looks for the edges of words beyond ASCII. -/
  | wordEdge
  deriving DecidableEq, Repr

def Fault.message : Fault → String
  | unusable => "error building NFA"
  | wordEdge =>
    "unsupported regex feature for DFAs: cannot build DFAs for regexes with Unicode word "
      ++ "boundaries; switch to ASCII word boundaries, or heuristically enable Unicode word "
      ++ "boundaries or use a different regex engine"

/-! ## Depth -/

/-- How deep the parts of a pattern may lie inside each other. -/
def maxDepth : Nat :=
  250

/-- The depth of what is made of parts of some depths. A single part is not put into anything. -/
def joinDepth : List Nat → Nat
  | [] => 0
  | [depth] => depth
  | depths => depths.foldr max 0 + 1

/-! ## Flags -/

/-- How a part of a pattern is read. -/
structure Flags where
  ignoresCase : Bool
  /-- Characters are matched, and not octets. -/
  matchesCharacters : Bool
  /-- Blanks and comments mean nothing. -/
  skipsBlanks : Bool
  deriving DecidableEq, Repr

namespace Flags

/-- The flags at the start of a pattern. -/
def initial : Flags :=
  ⟨false, true, false⟩

/-- What may be written to change flags: their letters, and the minus sign that stands before those
that are taken off. Each may be there once, and the sign has to have a letter behind it. -/
def areChanges (letters : List Char) : Bool :=
  letters.all ['i', 'm', 's', 'U', 'u', 'R', 'x', '-'].contains && decide letters.Nodup
    && letters.getLast? != some '-'

/-- The flags with those changed that are written. The others decide only what is matched. -/
def change (f : Flags) (letters : List Char) : Flags :=
  let on := letters.takeWhile (· != '-')
  let off := letters.dropWhile (· != '-')
  let changed (old : Bool) (letter : Char) := on.contains letter || (old && !off.contains letter)
  ⟨changed f.ignoresCase 'i', changed f.matchesCharacters 'u', changed f.skipsBlanks 'x'⟩

def admitsChars (f : Flags) : Bool :=
  !(f.ignoresCase && f.matchesCharacters)

/-- Whether a character can be matched that is written as an octet or stands in a class. -/
def admits (f : Flags) (c : Char) : Bool :=
  if f.matchesCharacters then f.admitsChars else c.toNat < 0x80

/-- The text after the blanks and the comments at its start. A comment goes from a number sign to
the end of its line. -/
def afterBlanks (inComment : Bool) : List Char → List Char
  | [] => []
  | c :: rest =>
    if inComment then afterBlanks (c != '\n') rest
    else if c = '#' then afterBlanks true rest
    else if Text.isBlank c then afterBlanks false rest
    else c :: rest

/-- The text from where something is meant on. -/
def skip (f : Flags) (text : List Char) : List Char :=
  if f.skipsBlanks then afterBlanks false text else text

end Flags

end PocketCalculator.Pattern
