import Wiring.Decimal.Round
import Wiring.Text.Integer

/-!
# Decimals — reading

The decimal a text writes (`Decimal.read`): an optional sign, then `inf`, `infinity` or `nan` in
any case, or digits with at most one point among them and at least one digit, and an exponent
behind `e` or `E` if there is one.  The number is read exactly and rounded once.
-/

namespace Wiring.Decimal

/-- Why a text is no decimal. -/
inductive Fault where
  | empty
  | malformed
  deriving DecidableEq

/-- The wording of a fault. -/
def Fault.message : Fault → String
  | .empty => "cannot parse float from empty string"
  | .malformed => "invalid float literal"

/-- The leading digits of `cs` and what follows them. -/
def spanDigits (cs : List Char) : List Char × List Char :=
  cs.span fun c => (Text.digit? c).isSome

/-- The number a run of digits writes. -/
def digitsValue (cs : List Char) : Nat :=
  cs.foldl (fun acc c => 10 * acc + (Text.digit? c).getD 0) 0

/-- Splits a sign off. -/
def splitSign : List Char → Bool × List Char
  | '-' :: cs => (true, cs)
  | '+' :: cs => (false, cs)
  | cs => (false, cs)

/-- The exponent at the end of a number; without one it is zero. -/
def readExponent? : List Char → Option Int
  | [] => some 0
  | c :: cs =>
    if c = 'e' ∨ c = 'E' then
      let (negative, body) := splitSign cs
      match spanDigits body with
      | ([], _) => none
      | (digits, []) => some (if negative then -(digitsValue digits : Int) else digitsValue digits)
      | _ => none
    else none

/-- The decimal nearest to `w · 10 ^ e`.  Beyond 310 places before the point there is only
infinity, and beyond 324 empty places behind it only zero, so no power is taken there. -/
def ofPower (negative : Bool) (w : Nat) (e : Int) : Decimal :=
  let top : Int := (Nat.toDigits 10 w).length + e
  if w = 0 ∨ top < -324 then zero negative
  else if 310 < top then infinity negative
  else ofRatio negative (w * tenPow e.toNat) (tenPow (-e).toNat)

/-- The number a digit form writes. -/
def readDigitForm? (negative : Bool) (cs : List Char) : Option Decimal :=
  let (whole, rest) := spanDigits cs
  let (part, rest) :=
    match rest with
    | '.' :: rest => spanDigits rest
    | rest => ([], rest)
  if whole.isEmpty && part.isEmpty then none
  else (readExponent? rest).map fun e =>
    ofPower negative (digitsValue (whole ++ part)) (e - part.length)

/-- The decimal a text writes; blanks are no part of it. -/
def read (s : String) : Except Fault Decimal :=
  match s.toList with
  | [] => .error .empty
  | cs =>
    let (negative, body) := splitSign cs
    let word := String.ofList (body.map Char.toLower)
    if word = "inf" ∨ word = "infinity" then .ok (infinity negative)
    else if word = "nan" then .ok (notANumber negative)
    else
      match readDigitForm? negative body with
      | some d => .ok d
      | none => .error .malformed

end Wiring.Decimal
