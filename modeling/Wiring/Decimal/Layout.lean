import Wiring.Decimal.Shortest

/-!
# Decimals — layout

The two texts of a decimal.  `Decimal.text` writes the shortest digits in positional form only.
`Decimal.jsonNumber?` keeps a point in every number, writes an exponent for the very large and the
very small, and has no text for NaN and the infinities.
-/

namespace Wiring.Decimal

/-- A row of `n` zeros. -/
def zeros (n : Nat) : List Char := List.replicate n '0'

/-- Digits and places in positional form; a whole number ends in `wholeMark`. -/
def positional (wholeMark : List Char) (d : Digits) : List Char :=
  let digits := Nat.toDigits 10 d.digits
  let point := (digits.length : Int) + d.exponent
  if 0 ≤ d.exponent then digits ++ zeros d.exponent.toNat ++ wholeMark
  else if 0 < point then digits.take point.toNat ++ '.' :: digits.drop point.toNat
  else '0' :: '.' :: (zeros (-point).toNat ++ digits)

/-- One digit, the others behind a point, and a signed exponent. -/
def scientific (d : Digits) : List Char :=
  let digits := Nat.toDigits 10 d.digits
  let place := (digits.length : Int) + d.exponent - 1
  let tail := if digits.length ≤ 1 then [] else '.' :: digits.drop 1
  digits.take 1 ++ tail ++ ['e', if place < 0 then '-' else '+'] ++ Nat.toDigits 10 place.natAbs

/-- The form of a JSON number: positional where the first digit stands at most five places behind
the point or at most fifteen before it. -/
def balanced (d : Digits) : List Char :=
  let place := (digitCount d.digits : Int) + d.exponent - 1
  if -5 ≤ place ∧ place ≤ 15 then positional ['.', '0'] d else scientific d

/-- A minus sign before a negative number. -/
def signed (d : Decimal) (body : List Char) : String :=
  String.ofList (if d.isNegative then '-' :: body else body)

/-- The decimal in positional form.  Of two equally near digits the larger is written, a NaN has no
sign, and a whole number no point. -/
def text (d : Decimal) : String :=
  match d.magnitude with
  | .notANumber => "NaN"
  | .infinite => d.signed ['i', 'n', 'f']
  | .finite 0 _ => d.signed ['0']
  | .finite m q => d.signed (positional [] (shortest .up m q))

/-- The decimal as a JSON number.  Of two equally near digits the even one is written. -/
def jsonNumber? (d : Decimal) : Option String :=
  match d.magnitude with
  | .notANumber => none
  | .infinite => none
  | .finite 0 _ => some (d.signed ['0', '.', '0'])
  | .finite m q => some (d.signed (balanced (shortest .toEven m q)))

end Wiring.Decimal
