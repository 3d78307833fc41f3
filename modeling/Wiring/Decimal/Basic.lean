/-!
# Decimals — binary64 words

A decimal is a binary64 number, held as its 64-bit word: two decimals are equal when their words
are, so the two zeros differ and so do two NaNs of different sign.  `Decimal.magnitude` takes the
word apart into NaN, infinity or `m · 2^q`; `Decimal.ofScaled` puts `m · 2^q` back together.
-/

namespace Wiring

/-- `2 ^ n`. -/
def twoPow (n : Nat) : Nat := Nat.pow 2 n

/-- `10 ^ n`. -/
def tenPow (n : Nat) : Nat := Nat.pow 10 n

/-- A binary64 number. -/
structure Decimal where
  /-- Sign, 11 bits of exponent and 52 bits of fraction, from the top. -/
  bits : UInt64
  deriving DecidableEq

/-- A decimal without its sign. -/
inductive Magnitude where
  | notANumber
  | infinite
  /-- The number `m · 2 ^ q`. -/
  | finite (m : Nat) (q : Int)

namespace Decimal

/-- The sign bit is set. -/
def isNegative (d : Decimal) : Bool :=
  twoPow 63 ≤ d.bits.toNat

/-- The 52 bits of fraction. -/
def fraction (d : Decimal) : Nat :=
  d.bits.toNat % twoPow 52

/-- The 11 bits of exponent. -/
def exponent (d : Decimal) : Nat :=
  d.bits.toNat / twoPow 52 % twoPow 11

/-- The number without its sign.  Below the least exponent the fraction stands alone, above it a
leading one is implied. -/
def magnitude (d : Decimal) : Magnitude :=
  if d.exponent = 2047 then
    if d.fraction = 0 then .infinite else .notANumber
  else if d.exponent = 0 then .finite d.fraction (-1074)
  else .finite (twoPow 52 + d.fraction) (d.exponent - 1075)

/-- The word with the given sign above the 63 bits of `word`. -/
def ofWord (negative : Bool) (word : Nat) : Decimal :=
  ⟨UInt64.ofNat (word + if negative then twoPow 63 else 0)⟩

/-- The word of an infinity. -/
def infiniteWord : Nat := 2047 * twoPow 52

def zero (negative : Bool) : Decimal := ofWord negative 0

def infinity (negative : Bool) : Decimal := ofWord negative infiniteWord

/-- The quiet NaN of the given sign. -/
def notANumber (negative : Bool) : Decimal := ofWord negative (infiniteWord + twoPow 51)

/-- The decimal `m · 2 ^ q`, where `m ≤ 2 ^ 53` and `-1074 ≤ q`, and `2 ^ 52 ≤ m` unless
`q = -1074`.  The leading one of `m` counts as one more in the exponent, and `2 ^ 53` carries into
it; past the last exponent there is infinity. -/
def ofScaled (negative : Bool) (m : Nat) (q : Int) : Decimal :=
  ofWord negative (min ((q + 1074).toNat * twoPow 52 + m) infiniteWord)

end Decimal

end Wiring
