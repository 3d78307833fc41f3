import Wiring.Decimal.Basic

/-!
# Decimals — rounding

The decimal nearest to a ratio of natural numbers (`Decimal.ofRatio`).  A number halfway between
two decimals goes to the one with the even mantissa, and a number past the largest decimal goes to
infinity.
-/

namespace Wiring

/-- `a / b` rounded to the nearest natural number, halves to the even one. -/
def roundDiv (a b : Nat) : Nat :=
  let quotient := a / b
  match compare (2 * (a % b)) b with
  | .lt => quotient
  | .gt => quotient + 1
  | .eq => quotient + quotient % 2

namespace Decimal

/-- The exponent `q` for which `a / b` lies between `2 ^ (52 + q)` and `2 ^ (53 + q)`, or the least
one where that is smaller. -/
def scaleOf (a b : Nat) : Int :=
  let k : Int := (a.log2 : Int) - (b.log2 : Int)
  let reaches := b * twoPow k.toNat ≤ a * twoPow (-k).toNat
  max (-1074) (if reaches then k - 52 else k - 53)

/-- The decimal nearest to `a / b`, where `0 < b`. -/
def ofRatio (negative : Bool) (a b : Nat) : Decimal :=
  if a = 0 then zero negative
  else
    let q := scaleOf a b
    ofScaled negative (roundDiv (a * twoPow (-q).toNat) (b * twoPow q.toNat)) q

/-- The decimal nearest to an integer. -/
def ofInt (i : Int) : Decimal :=
  ofRatio (i < 0) i.natAbs 1

example : ofInt 9007199254740993 = ofInt 9007199254740992 := by decide
example : (ofInt (-1)).bits = 0xBFF0000000000000 := by decide

end Decimal

end Wiring
