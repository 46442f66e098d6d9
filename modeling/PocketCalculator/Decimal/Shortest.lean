import PocketCalculator.Decimal

/-!
# Shortest decimals

The decimal with the fewest digits that reads back as a given floating-point number, and of those
the nearest to it. A float is `mantissa * 2 ^ exponent`; all arithmetic on it is exact.

For each count of digits the two neighbours of the number on that grid are tried, the nearer one
first, and the higher one first where both are equally near. `shortest` is the first that reads
back. Seventeen digits are always enough, so the exact expansion, which follows them, is never
needed; it is there to make the search total without a hypothesis.
-/

namespace PocketCalculator

/-- The number `mantissa * 2 ^ exponent`. -/
structure Binary where
  mantissa : Nat
  exponent : Int
  deriving DecidableEq, Repr

namespace Binary

/-- The magnitude of a finite float: its fraction bits, with the hidden bit of a normal number, and
its unbiased exponent. -/
def ofFloat (v : Float) : Binary :=
  let bits := v.toBits.toNat
  let fraction := bits % Nat.pow 2 52
  let biased : Nat := bits / Nat.pow 2 52 % Nat.pow 2 11
  if biased = 0 then ⟨fraction, -1074⟩ else ⟨fraction + Nat.pow 2 52, (biased : Int) - 1075⟩

def toDecimal (b : Binary) : Decimal :=
  if 0 ≤ b.exponent then ⟨b.mantissa * Nat.pow 2 b.exponent.toNat, 0⟩
  else Decimal.reduced (b.mantissa * Nat.pow 5 b.exponent.natAbs) b.exponent.natAbs

/-- The numerator of the number as a fraction. -/
def numerator (b : Binary) : Nat :=
  if 0 ≤ b.exponent then b.mantissa * Nat.pow 2 b.exponent.toNat else b.mantissa

/-- The denominator of the number as a fraction. -/
def denominator (b : Binary) : Nat :=
  if 0 ≤ b.exponent then 1 else Nat.pow 2 b.exponent.natAbs

/-- The position of the first digit: a positive number lies between `10 ^ (n - 1)` and `10 ^ n`
for `n = b.magnitude`. -/
def magnitude (b : Binary) : Int :=
  if b.denominator ≤ b.numerator then
    (Nat.toDigits 10 (b.numerator / b.denominator)).length
  else 1 - ((Nat.toDigits 10 (b.denominator / b.numerator)).length : Int)

/-- The decimal `count * 10 ^ scale`. -/
def gridPoint (scale : Int) (count : Nat) : Decimal :=
  if 0 ≤ scale then ⟨count * Nat.pow 10 scale.toNat, 0⟩ else Decimal.reduced count scale.natAbs

/-- The two multiples of `10 ^ scale` around the number, the nearer one first; of two equally near
ones the higher. -/
def neighbours (b : Binary) (scale : Int) : List Decimal :=
  let top := if 0 ≤ scale then b.numerator else b.numerator * Nat.pow 10 scale.natAbs
  let bottom := if 0 ≤ scale then b.denominator * Nat.pow 10 scale.toNat else b.denominator
  let below := gridPoint scale (top / bottom)
  let above := gridPoint scale (top / bottom + 1)
  if 2 * (top % bottom) < bottom then [below, above] else [above, below]

end Binary

namespace Decimal

/-- The nearest of the decimals with the fewest digits that read back as the magnitude of `v`. -/
def shortest (v : Float) : Decimal :=
  let b := Binary.ofFloat v
  let readsBack := fun d : Decimal => d.toFloat == v.abs
  -- One digit is tried first, and then one more at a time.
  let found := (List.range 17).findSome? fun extra : Nat =>
    (b.neighbours (b.magnitude - 1 - extra)).find? readsBack
  found.getD b.toDecimal

/-- The chosen decimal reads back, unless it is the exact expansion. -/
theorem shortest_toFloat_beq (v : Float) :
    ((shortest v).toFloat == v.abs) = true ∨ shortest v = (Binary.ofFloat v).toDecimal := by
  unfold shortest
  simp only
  generalize hf : (List.range 17).findSome? (fun extra : Nat =>
    ((Binary.ofFloat v).neighbours ((Binary.ofFloat v).magnitude - 1 - extra)).find?
      fun d : Decimal => d.toFloat == v.abs) = found
  cases found with
  | none => exact .inr rfl
  | some d =>
    obtain ⟨_, _, hd⟩ := List.exists_of_findSome?_eq_some hf
    exact .inl (by simpa using List.find?_some hd)

end Decimal

end PocketCalculator
