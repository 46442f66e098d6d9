import PocketCalculator.Decimal.Shortest

/-!
# Numerals

How floating-point numbers are written: in positional notation without an exponent, however large
or small they are, with the digits of the shortest decimal that reads back. `Numeral.text` shows
the sign of zero, `Numeral.display` does not.
-/

namespace PocketCalculator.Numeral

/-- Whether the sign bit is set; it is for negative zero. -/
def isNegative (v : Float) : Bool :=
  v.toBits.toNat / Nat.pow 2 63 == 1

/-- The magnitude of a number that is not `NaN`. -/
def magnitude (v : Float) : List Char :=
  if v.isInf then "inf".toList
  else if v == 0.0 then ['0']
  else (Decimal.shortest v).text

def text (v : Float) : List Char :=
  if v.isNaN then "NaN".toList
  else if isNegative v then '-' :: magnitude v
  else magnitude v

/-- The form of a number on the display: negative zero shows as zero. -/
def display (v : Float) : List Char :=
  if v == 0.0 then ['0'] else text v

end PocketCalculator.Numeral
