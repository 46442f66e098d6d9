import PocketCalculator.Pattern.Bracket
import PocketCalculator.Text.Alphabetic

/-!
# Reading patterns

A pattern is read from left to right, over a stack of the groups that are open. Nothing is made of
it: `fault?` says whether it can be used.

A change of flags holds to the end of the group it stands in. What is repeated has to be there, and
a change of flags is nothing that can be. A count in braces is never closed, since a brace ends what
patterns are written in.
-/

namespace PocketCalculator.Pattern

inductive Part where
  | change
  | item (depth : Nat)
  deriving DecidableEq, Repr

def Part.depth : Part → Nat
  | change => 0
  | item depth => depth

structure Group where
  flags : Flags
  /-- The parts of the last branch, newest first. -/
  parts : List Part
  /-- The depths of the branches before it. -/
  branches : List Nat
  deriving DecidableEq, Repr

namespace Group

def empty (f : Flags) : Group :=
  ⟨f, [], []⟩

def branchDepth (g : Group) : Nat :=
  joinDepth (g.parts.map Part.depth)

def depth (g : Group) : Nat :=
  joinDepth (g.branchDepth :: g.branches)

def add (g : Group) (depth : Nat) : Group :=
  { g with parts := .item depth :: g.parts }

end Group

structure Progress where
  group : Group
  /-- The groups it lies in, the innermost first. -/
  outer : List Group
  /-- The names of groups. -/
  names : List (List Char)
  /-- The edges of words beyond ASCII are looked for. -/
  hasWordEdge : Bool
  deriving DecidableEq, Repr

namespace Progress

def start : Progress :=
  ⟨.empty .initial, [], [], false⟩

def add (p : Progress) (depth : Nat) : Progress :=
  { p with group := p.group.add depth }

/-! ## Groups -/

/-- Opens a group that has flags of its own. -/
def enter (p : Progress) (f : Flags) : Progress :=
  { p with group := .empty f, outer := p.group :: p.outer }

def leave? (p : Progress) : Option Progress :=
  match p.outer with
  | [] => none
  | g :: outer => some { p with group := g.add (p.group.depth + 1), outer }

/-- Names start with a letter or an underscore. -/
def isName : List Char → Bool
  | [] => false
  | c :: rest =>
    (c == '_' || Text.isAlphabetic c)
      && rest.all fun c => ['_', '.', '[', ']'].contains c || Text.isAlphanumeric c

/-- Opens a group with a name, which is read up to the bracket after it. -/
def enterNamed? (p : Progress) (text : List Char) : Option (Progress × List Char) :=
  let name := text.takeWhile (· != '>')
  match text.dropWhile (· != '>') with
  | [] => none
  | _ :: rest =>
    if isName name && !p.names.contains name then
      some ({ p with names := name :: p.names }.enter p.group.flags, rest)
    else none

/-- Changes flags, for a group that is opened or for what is left of the group around. -/
def changeFlags? (p : Progress) (text : List Char) : Option (Progress × List Char) :=
  let letters := text.takeWhile fun c => c != ':' && c != ')'
  let flags := p.group.flags.change letters
  if Flags.areChanges letters then
    match text.dropWhile fun c => c != ':' && c != ')' with
    | ':' :: rest => some (p.enter flags, rest)
    | ')' :: rest =>
      if letters.isEmpty then none
      else
        let group := { p.group with flags, parts := .change :: p.group.parts }
        some ({ p with group }, rest)
    | _ => none
  else none

/-- Reads what opens a group, after its parenthesis. -/
def openGroup? (p : Progress) (text : List Char) : Option (Progress × List Char) :=
  match p.group.flags.skip text with
  | '?' :: 'P' :: '<' :: rest => p.enterNamed? rest
  | '?' :: '<' :: rest => p.enterNamed? rest
  | '?' :: rest => p.changeFlags? rest
  | rest => some (p.enter p.group.flags, rest)

/-! ## The parts of a branch -/

def branch (p : Progress) : Progress :=
  { p with group := { p.group with
      parts := [], branches := p.group.branchDepth :: p.group.branches } }

def repeat? (p : Progress) : Option Progress :=
  match p.group.parts with
  | .item depth :: parts =>
    some { p with group := { p.group with parts := .item (depth + 1) :: parts } }
  | _ => none

def addEscape? (p : Progress) : Escape → Option Progress
  | .char _ => if p.group.flags.admitsChars then some (p.add 0) else none
  | .octet c => if p.group.flags.admits c then some (p.add 0) else none
  | .kind isNegated => if p.group.flags.admitsKind isNegated then some (p.add 0) else none
  | .edge => some (p.add 0)
  | .wordEdge =>
    some { p.add 0 with hasWordEdge := p.hasWordEdge || p.group.flags.matchesCharacters }

/-- Goes over a character and over what belongs to it. -/
def step? (p : Progress) (rest : List Char) : Char → Option (Progress × List Char)
  | '(' => p.openGroup? rest
  | ')' => p.leave?.map (·, rest)
  | '|' => some (p.branch, rest)
  | '[' => do
    let (depth, rest) ← Bracket.read? p.group.flags rest
    some (p.add depth, rest)
  | '?' | '*' | '+' =>
    -- A question mark after it asks for as few as possible.
    p.repeat?.map (·, if rest.head? = some '?' then rest.drop 1 else rest)
  | '\x7b' => none
  | '.' => if p.group.flags.matchesCharacters then some (p.add 0, rest) else none
  | '^' | '$' => some (p.add 0, rest)
  | '\\' => do
    let (escape, rest) ← Escape.read? p.group.flags rest
    (p.addEscape? escape).map (·, rest)
  | _ => if p.group.flags.admitsChars then some (p.add 0, rest) else none

/-- Reads a text to its end. Each step is over at least one character, and `fuel` bounds the
steps. -/
def readFrom? (p : Progress) : Nat → List Char → Option Progress
  | 0, _ => none
  | fuel + 1, text =>
    match p.group.flags.skip text with
    | [] => some p
    | c :: rest => do
      let (p, rest) ← p.step? rest c
      p.readFrom? fuel rest

end Progress

/-- Why a text cannot be used as a pattern, if it cannot. -/
def fault? (text : List Char) : Option Fault :=
  match Progress.start.readFrom? (text.length + 1) text with
  | none => some .unusable
  | some p =>
    if !p.outer.isEmpty || maxDepth < p.group.depth then some .unusable
    else if p.hasWordEdge then some .wordEdge
    else none

end PocketCalculator.Pattern
