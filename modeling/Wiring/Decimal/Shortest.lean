import Wiring.Decimal.Basic

/-!
# Decimals — shortest digits

The fewest decimal digits that read back as the same decimal (`shortest`).  The numbers that round
to `m · 2^q` form an interval around it, whose ends belong to it iff `m` is even.  For one digit,
two, and so on up to seventeen, the two neighbours of `m · 2^q` on the grid of numbers with so
many digits are tried, in exact arithmetic: the first grid with a neighbour inside the interval
gives the digits, and of two such neighbours the nearer one is taken.  Only where both are equally
near is there a choice (`Tie`).
-/

namespace Wiring

/-- The number `digits · 10 ^ exponent`. -/
structure Digits where
  digits : Nat
  exponent : Int
  deriving DecidableEq

/-- Which of two equally near neighbours is taken. -/
inductive Tie where
  | toEven
  | up
  deriving DecidableEq

namespace Decimal

/-- The count of digits of a number. -/
def digitCount (n : Nat) : Nat := (Nat.toDigits 10 n).length

/-- The `k` with `10 ^ k ≤ a / b < 10 ^ (k + 1)`, for positive `a` and `b`. -/
def leadingPlace (a b : Nat) : Int :=
  if b ≤ a then digitCount (a / b) - 1 else -(digitCount ((b - 1) / a) : Int)

/-- The interval of numbers that round to `4 · m` quarters of a unit, in quarters: half a unit each
way, and a quarter downwards where the decimals below lie twice as dense. -/
def roundingEnds (m : Nat) (q : Int) : Nat × Nat :=
  (if m = twoPow 52 ∧ -1074 < q then 4 * m - 1 else 4 * m - 2, 4 * m + 2)

/-- The neighbour of `value / step` that lies between `low / step` and `high / step`, the nearer
one of two.  The ends count when `closed`. -/
def neighbour? (tie : Tie) (closed : Bool) (low value high step : Nat) : Option Nat :=
  let below := value / step
  let inside (c : Nat) : Bool :=
    if closed then low ≤ c * step && c * step ≤ high else low < c * step && c * step < high
  match inside below, inside (below + 1) with
  | false, false => none
  | true, false => some below
  | false, true => some (below + 1)
  | true, true =>
    match compare (2 * (value % step)) step, tie with
    | .lt, _ => some below
    | .gt, _ => some (below + 1)
    | .eq, .toEven => some (below + below % 2)
    | .eq, .up => some (below + 1)

/-- The neighbour of `m · 2 ^ q` among the numbers with `count` digits that reads back as it. -/
def withDigits? (tie : Tie) (m : Nat) (q : Int) (count : Nat) : Option Digits :=
  let a := twoPow (q - 2).toNat
  let b := twoPow (2 - q).toNat
  let place := leadingPlace (4 * m * a) b + 1 - count
  let unit := a * tenPow (-place).toNat
  let step := b * tenPow place.toNat
  let (low, high) := roundingEnds m q
  (neighbour? tie (m % 2 = 0) (low * unit) (4 * m * unit) (high * unit) step).map fun c =>
    if c = tenPow count then ⟨1, place + count⟩ else ⟨c, place⟩

/-- The shortest digits of `m · 2 ^ q`, where `0 < m`. -/
def shortest (tie : Tie) (m : Nat) (q : Int) : Digits :=
  ((List.range' 1 17).findSome? (withDigits? tie m q)).getD ⟨m, q⟩

example : shortest .toEven 1 (-1074) = ⟨5, -324⟩ := by decide +kernel
example : shortest .toEven 2 (-1074) = ⟨1, -323⟩ := by decide +kernel
example : shortest .toEven (twoPow 52) (-52) = ⟨1, 0⟩ := by decide +kernel

end Decimal

end Wiring
