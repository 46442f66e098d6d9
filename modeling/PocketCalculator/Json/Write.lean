import PocketCalculator.Json

/-!
# Writing JSON

A value is written either in one line without blanks, or with every member and item on a line of
its own, indented by two blanks a level. Only what has to be escaped in a string is escaped.
-/

namespace PocketCalculator.Json

inductive Style where
  | compact
  /-- Lines, at a depth. -/
  | lines (depth : Nat)
  deriving DecidableEq, Repr

namespace Style

def inside : Style → Style
  | compact => compact
  | lines depth => lines (depth + 1)

/-- The start of a new line, where there are lines. -/
def lineBreak : Style → List Char
  | compact => []
  | lines depth => '\n' :: List.replicate (2 * depth) ' '

/-- What stands between a key and its value. -/
def colon : Style → List Char
  | compact => [':']
  | lines _ => [':', ' ']

end Style

def hexDigit (n : Nat) : Char :=
  Nat.digitChar (n % 16)

/-- A character as it stands in a string. -/
def escape (c : Char) : List Char :=
  match c with
  | '"' => ['\\', '"']
  | '\\' => ['\\', '\\']
  | '\x08' => ['\\', 'b']
  | '\x0C' => ['\\', 'f']
  | '\n' => ['\\', 'n']
  | '\r' => ['\\', 'r']
  | '\t' => ['\\', 't']
  | c =>
    if c.toNat < 0x20 then ['\\', 'u', '0', '0', hexDigit (c.toNat / 16), hexDigit c.toNat] else [c]

def quote (text : List Char) : List Char :=
  '"' :: text.flatMap escape ++ ['"']

def writeInteger : Int → List Char
  | .ofNat n => Nat.toDigits 10 n
  | .negSucc n => '-' :: Nat.toDigits 10 (n + 1)

mutual

/-- The text of a value. Of the values that are not kept, one of the same kind is written. -/
def write (style : Style) : Json → List Char
  | null => "null".toList
  | bool value => (if value then "true" else "false").toList
  | integer value => writeInteger value
  | real => "0.0".toList
  | string text => quote text.toList
  | garbled => "\"\\ud800\"".toList
  | array [] => ['[', ']']
  | array (item :: items) =>
    '[' :: style.inside.lineBreak ++ write style.inside item
      ++ (writeItems style.inside items ++ style.lineBreak ++ [']'])
  | object [] => ['\x7b', '\x7d']
  | object ((key, value) :: members) =>
    '\x7b' :: style.inside.lineBreak ++ quote key.toList ++ style.inside.colon
      ++ write style.inside value
      ++ (writeMembers style.inside members ++ style.lineBreak ++ ['\x7d'])

def writeItems (style : Style) : List Json → List Char
  | [] => []
  | item :: items => ',' :: style.lineBreak ++ write style item ++ writeItems style items

def writeMembers (style : Style) : List (String × Json) → List Char
  | [] => []
  | (key, value) :: members =>
    ',' :: style.lineBreak ++ quote key.toList ++ style.colon ++ write style value
      ++ writeMembers style members

end

/-- The text of a value in one line. -/
def compact (j : Json) : String :=
  String.ofList (write .compact j)

def pretty (j : Json) : String :=
  String.ofList (write (.lines 0) j)

end PocketCalculator.Json
