import PocketCalculator.Decimal
import PocketCalculator.Keypad.Layout
import PocketCalculator.Pattern.Reading

/-!
# Fields in log filters

A field is a name, and behind an equals sign the value that it shall have: a truth value, a number,
or a pattern. Truth values are patterns as well, and so are numbers unless a plus sign comes first.
-/

namespace PocketCalculator.Host.LogField

/-- Whether a text is the name of a number that is written with letters. -/
def namesNumber (text : List Char) : Bool :=
  ["inf", "infinity", "nan"].any fun name => Layout.sameLetters name.toList text

/-- Whether a text is what may come after the digits of a number: nothing, or an exponent. -/
def isExponent : List Char → Bool
  | [] => true
  | _ :: text =>
    let digits := if text.head? = some '+' || text.head? = some '-' then text.drop 1 else text
    !digits.isEmpty && digits.all Char.isDigit

/-- Whether a text is a number with a plus sign. -/
def isPlusNumber : List Char → Bool
  | '+' :: text =>
    let isMantissa (c : Char) := c != 'e' && c != 'E'
    namesNumber text
      || ((Decimal.ofText? (text.takeWhile isMantissa)).isSome
        && isExponent (text.dropWhile isMantissa))
  | _ => false

/-- The value in a field, if there is one. It ends where another equals sign stands. -/
def value? (text : List Char) : Option (List Char) :=
  match text.dropWhile (· != '=') with
  | [] => none
  | _ :: rest => some (rest.takeWhile (· != '='))

/-- Why the value in a field cannot be looked for, if it cannot. -/
def fault? (text : List Char) : Option Pattern.Fault := do
  let value ← value? text
  if isPlusNumber value then none else Pattern.fault? value

end PocketCalculator.Host.LogField
