import PocketCalculator.Json
import PocketCalculator.Text.Hex
import PocketCalculator.Text.Utf8

/-!
# Reading JSON

Reads a value from a text of which parts may be no characters. Such parts are let pass inside
strings only, and a string that has any holds no text. Between the parts of a value there may be
blanks, tabs and line ends; after the value there may be nothing else.

The readers of values, items and members call each other. `fuel` counts the calls; two for each
character are always enough, because a character is read between any two calls of one reader.
-/

namespace PocketCalculator.Json

open Text (Scanned)

/-- The blanks of the format. -/
def isSpace : Option Char → Bool
  | some ' ' | some '\t' | some '\n' | some '\r' => true
  | _ => false

def skipSpace (text : Scanned) : Scanned :=
  text.dropWhile isSpace

/-! ## Strings -/

inductive Piece where
  | char (c : Char)
  /-- A code unit that is written in hexadecimal digits. -/
  | unit (n : Nat)
  /-- No character. -/
  | bad
  deriving DecidableEq, Repr

/-- The character that a letter after a backslash stands for. -/
def unescape? : Char → Option Char
  | '"' => some '"'
  | '\\' => some '\\'
  | '/' => some '/'
  | 'b' => some '\x08'
  | 'f' => some '\x0C'
  | 'n' => some '\n'
  | 'r' => some '\r'
  | 't' => some '\t'
  | _ => none

/-- The pieces up to the closing quote, and the text after it. The pieces so far are in `pieces`,
the newest first. -/
def readPieces (pieces : List Piece) : Scanned → Option (List Piece × Scanned)
  | some '"' :: rest => some (pieces.reverse, rest)
  | some '\\' :: some 'u' :: a :: b :: c :: d :: rest => do
    let a ← a.bind Text.hexValue?
    let b ← b.bind Text.hexValue?
    let c ← c.bind Text.hexValue?
    let d ← d.bind Text.hexValue?
    readPieces (.unit (((a * 16 + b) * 16 + c) * 16 + d) :: pieces) rest
  | some '\\' :: some c :: rest => do
    let c ← unescape? c
    readPieces (.char c :: pieces) rest
  | some c :: rest =>
    if c = '\\' ∨ c.toNat < 0x20 then none else readPieces (.char c :: pieces) rest
  | none :: rest => readPieces (.bad :: pieces) rest
  | [] => none

/-- The first half of a character outside the basic plane. -/
def isHighSurrogate (n : Nat) : Bool :=
  0xD800 ≤ n && n < 0xDC00

/-- The second half of a character outside the basic plane. -/
def isLowSurrogate (n : Nat) : Bool :=
  0xDC00 ≤ n && n < 0xE000

/-- The text of some pieces. Surrogates have to come in pairs. The characters so far are in `text`,
the newest first. -/
def joinPieces? (text : List Char) : List Piece → Option (List Char)
  | [] => some text.reverse
  | .char c :: rest => joinPieces? (c :: text) rest
  | .unit n :: rest =>
    if isHighSurrogate n then
      match rest with
      | .unit m :: rest =>
        if isLowSurrogate m then
          joinPieces? (Char.ofNat (0x10000 + (n - 0xD800) * 0x400 + (m - 0xDC00)) :: text) rest
        else none
      | _ => none
    else if isLowSurrogate n then none
    else joinPieces? (Char.ofNat n :: text) rest
  | .bad :: _ => none

/-- A string whose opening quote is read: its text, if it holds one, and what follows it. -/
def readString (text : Scanned) : Option (Option String × Scanned) := do
  let (pieces, rest) ← readPieces [] text
  some ((joinPieces? [] pieces).map String.ofList, rest)

/-! ## Numbers -/

def isDigit : Option Char → Bool
  | some c => c.isDigit
  | none => false

def digitsValue (digits : Scanned) : Nat :=
  Nat.ofDigitChars 10 (digits.filterMap id) 0

/-- Digits that have to be there, and the text after them. -/
def readDigits (text : Scanned) : Option (Scanned × Scanned) :=
  let digits := text.takeWhile isDigit
  if digits.isEmpty then none else some (digits, text.dropWhile isDigit)

/-- The digits of an integer. A zero stands alone. -/
def readNatural : Scanned → Option (Nat × Scanned)
  | some '0' :: rest => some (0, rest)
  | text => do
    let (digits, rest) ← readDigits text
    some (digitsValue digits, rest)

/-- The text after a fraction, and whether there is a fraction. -/
def skipFraction : Scanned → Option (Bool × Scanned)
  | some '.' :: rest => do
    let (_, rest) ← readDigits rest
    some (true, rest)
  | text => some (false, text)

/-- The text after a sign, if there is a sign. -/
def skipSign : Scanned → Scanned
  | some '+' :: rest | some '-' :: rest => rest
  | text => text

/-- The text after an exponent, and whether there is an exponent. -/
def skipExponent : Scanned → Option (Bool × Scanned)
  | some 'e' :: rest | some 'E' :: rest => do
    let (_, rest) ← readDigits (skipSign rest)
    some (true, rest)
  | text => some (false, text)

def readNumber (negative : Bool) (text : Scanned) : Option (Json × Scanned) := do
  let (n, rest) ← readNatural text
  let (hasFraction, rest) ← skipFraction rest
  let (hasExponent, rest) ← skipExponent rest
  -- Negative zero is a number, but no integer.
  let value :=
    if hasFraction || hasExponent || (negative && n == 0) then real
    else integer (if negative then -n else n)
  some (value, rest)

/-! ## Values -/

/-- The text after some letters, if it starts with them. -/
def skipLetters : List Char → Scanned → Option Scanned
  | [], text => some text
  | c :: letters, some d :: rest => if c = d then skipLetters letters rest else none
  | _, _ => none

def readName (letters : String) (value : Json) (text : Scanned) : Option (Json × Scanned) := do
  some (value, ← skipLetters letters.toList text)

/-- An object of which the members are read, garbled if one of the keys is. -/
def ofMembers (members : List (Option String × Json)) : Json :=
  match members.mapM fun member => member.1.map (·, member.2) with
  | some members => object members
  | none => garbled

def readKey (text : Scanned) : Option (Option String × Scanned) :=
  match skipSpace text with
  | some '"' :: rest => do
    let (key, rest) ← readString rest
    match skipSpace rest with
    | some ':' :: rest => some (key, rest)
    | _ => none
  | _ => none

mutual

def readValue : Nat → Scanned → Option (Json × Scanned)
  | 0, _ => none
  | fuel + 1, text =>
    match skipSpace text with
    | some 'n' :: rest => readName "ull" null rest
    | some 't' :: rest => readName "rue" (bool true) rest
    | some 'f' :: rest => readName "alse" (bool false) rest
    | some '"' :: rest => do
      let (content, rest) ← readString rest
      some (content.elim garbled string, rest)
    | some '-' :: rest => readNumber true rest
    | some '[' :: rest =>
      match skipSpace rest with
      | some ']' :: rest => some (array [], rest)
      | _ => do
        let (items, rest) ← readItems fuel [] rest
        some (array items, rest)
    | some '\x7b' :: rest =>
      match skipSpace rest with
      | some '\x7d' :: rest => some (object [], rest)
      | _ => do
        let (members, rest) ← readMembers fuel [] rest
        some (ofMembers members, rest)
    | text => readNumber false text

/-- The items up to the closing bracket. Those so far are in `items`, the newest first. -/
def readItems : Nat → List Json → Scanned → Option (List Json × Scanned)
  | 0, _, _ => none
  | fuel + 1, items, text => do
    let (item, rest) ← readValue fuel text
    match skipSpace rest with
    | some ',' :: rest => readItems fuel (item :: items) rest
    | some ']' :: rest => some ((item :: items).reverse, rest)
    | _ => none

/-- The members up to the closing brace. Those so far are in `members`, the newest first. -/
def readMembers : Nat → List (Option String × Json) → Scanned →
    Option (List (Option String × Json) × Scanned)
  | 0, _, _ => none
  | fuel + 1, members, text => do
    let (key, rest) ← readKey text
    let (value, rest) ← readValue fuel rest
    match skipSpace rest with
    | some ',' :: rest => readMembers fuel ((key, value) :: members) rest
    | some '\x7d' :: rest => some (((key, value) :: members).reverse, rest)
    | _ => none

end

def ofScanned? (text : Scanned) : Option Json := do
  let (value, rest) ← readValue (2 * text.length + 2) text
  if (skipSpace rest).isEmpty then some value else none

def ofText? (text : List Char) : Option Json :=
  ofScanned? (text.map some)

end PocketCalculator.Json
