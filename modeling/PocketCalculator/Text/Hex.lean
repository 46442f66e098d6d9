/-!
# Hexadecimal digits
-/

namespace PocketCalculator.Text

/-- What a hexadecimal digit stands for, in either letter case. -/
def hexValue? (c : Char) : Option Nat :=
  if c.isDigit then some (c.toNat - 48)
  else if 'a' ≤ c ∧ c ≤ 'f' then some (c.toNat - 87)
  else if 'A' ≤ c ∧ c ≤ 'F' then some (c.toNat - 55)
  else none

end PocketCalculator.Text
