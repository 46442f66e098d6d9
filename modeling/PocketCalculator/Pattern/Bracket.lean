import PocketCalculator.Pattern.Escape

/-!
# Classes

A class of characters stands in square brackets: its members one after the other, ranges of them,
named kinds, and classes again. Two of the same sign between members take what is in both, in the
first alone, or in one alone. A hyphen at the start stands for itself, and so does a closing bracket
that comes first. Only whether a class can be used is looked at, and how deep it goes.
-/

namespace PocketCalculator.Pattern

/-- The kinds of ASCII characters that have a name. -/
def kindNames : List String :=
  ["alnum", "alpha", "ascii", "blank", "cntrl", "digit", "graph", "lower", "print", "punct",
    "space", "upper", "word", "xdigit"]

/-- A named kind after its opening bracket: whether it is negated, and what follows it. -/
def namedKind? : List Char → Option (Bool × List Char)
  | ':' :: text =>
    let isNegated := text.head? == some '^'
    let text := if isNegated then text.drop 1 else text
    match text.dropWhile (· != ':') with
    | ':' :: ']' :: rest =>
      if kindNames.contains (String.ofList (text.takeWhile (· != ':'))) then
        some (isNegated, rest)
      else none
    | _ => none
  | _ => none

/-- Whether a named kind can be matched. Where octets are matched, what a negated one matches is no
ASCII. -/
def Flags.admitsNamed (f : Flags) (isNegated : Bool) : Bool :=
  if f.matchesCharacters then f.admitsChars else !isNegated

/-- Whether a kind that is written with a backslash can be matched. Of characters beyond ASCII the
kinds are not known. -/
def Flags.admitsKind (f : Flags) (isNegated : Bool) : Bool :=
  !f.matchesCharacters && !isNegated

structure Bracket where
  /-- Nothing but hyphens stands in it. -/
  isFresh : Bool
  /-- The depths of the members since the last sign, newest first. -/
  members : List Nat
  /-- The depth of what stands before the last sign. -/
  before : Option Nat
  deriving DecidableEq, Repr

namespace Bracket

def empty : Bracket :=
  ⟨true, [], none⟩

/-- The depth of what stands in a class. -/
def depth (b : Bracket) : Nat :=
  joinDepth (joinDepth b.members :: b.before.toList)

def add (b : Bracket) (depth : Nat) : Bracket :=
  ⟨false, depth :: b.members, b.before⟩

def addHyphen (b : Bracket) : Bracket :=
  { b with members := 0 :: b.members }

def combine (b : Bracket) : Bracket :=
  ⟨false, [], some b.depth⟩

/-- What is read of a class in one step. -/
inductive Part where
  | hyphen
  | member
  | sign
  | opening
  | closing
  deriving DecidableEq, Repr

/-- A member as it is written: a character, or nothing if it is a kind. -/
def readMember? (f : Flags) : List Char → Option (Option Char × List Char)
  | [] => none
  | '\\' :: rest =>
    match Escape.read? f rest with
    | some (.char c, rest) | some (.octet c, rest) => some (some c, rest)
    | some (.kind isNegated, rest) => if f.admitsKind isNegated then some (none, rest) else none
    | _ => none
  | c :: rest => some (some c, rest)

/-- Whether a hyphen that comes before a text stands between the ends of a range. -/
def isRange (f : Flags) (text : List Char) : Bool :=
  -- The look ahead ends a comment at its first character.
  let text := if f.skipsBlanks then text.dropWhile Text.isBlank else text
  let text := match text with
    | '#' :: rest => if f.skipsBlanks then rest.dropWhile Text.isBlank else text
    | _ => text
  text.head? != some ']' && text.head? != some '-'

/-- The text after a member or a range. -/
def readRange? (f : Flags) (text : List Char) : Option (List Char) := do
  let (first, rest) ← readMember? f text
  let rest := f.skip rest
  if rest.head? == some '-' && isRange f (rest.drop 1) then
    let (last, rest) ← readMember? f (f.skip (rest.drop 1))
    let first ← first
    let last ← last
    if first ≤ last && f.admits first && f.admits last then some rest else none
  else if first.all f.admits then some rest
  else none

/-- The text after an opening bracket and the circumflex that negates what follows. -/
def open? (f : Flags) (text : List Char) : Option (List Char) :=
  match f.skip text with
  | '^' :: rest => if f.matchesCharacters then some rest else none
  | rest => some rest

def next? (f : Flags) (b : Bracket) : List Char → Option (Part × List Char)
  | [] => none
  | c :: rest =>
    if b.isFresh && c = '-' then if f.admits c then some (.hyphen, rest) else none
    else if b.isFresh && b.members.isEmpty && c = ']' then
      if f.admits c then some (.member, rest) else none
    else if c = ']' then some (.closing, rest)
    else if c = '[' then
      match namedKind? rest with
      | some (isNegated, rest) => if f.admitsNamed isNegated then some (.member, rest) else none
      | none => (open? f rest).map (.opening, ·)
    else if (c = '&' || c = '-' || c = '~') && rest.head? = some c then some (.sign, rest.drop 1)
    else (readRange? f (c :: rest)).map (.member, ·)

/-- Reads on in a class that may lie in others: the depth of the outermost, and the text after its
closing bracket. Each step is over at least one character, and `fuel` bounds the steps. -/
def readFrom? (f : Flags) : Nat → Bracket → List Bracket → List Char → Option (Nat × List Char)
  | 0, _, _, _ => none
  | fuel + 1, b, outer, text => do
    match ← next? f b (f.skip text) with
    | (.hyphen, rest) => readFrom? f fuel b.addHyphen outer rest
    | (.member, rest) => readFrom? f fuel (b.add 0) outer rest
    | (.sign, rest) => readFrom? f fuel b.combine outer rest
    | (.opening, rest) => readFrom? f fuel empty (b :: outer) rest
    | (.closing, rest) =>
      match outer with
      | [] => some (b.depth + 1, rest)
      | o :: outer => readFrom? f fuel (o.add (b.depth + 1)) outer rest

def read? (f : Flags) (text : List Char) : Option (Nat × List Char) := do
  let rest ← open? f text
  readFrom? f (rest.length + 1) empty [] rest

end Bracket

end PocketCalculator.Pattern
