/-!
# Text — integers

Reading a signed 64-bit integer from its decimal text: an optional sign and one or more ASCII
digits, within the range (`readInteger`).  The digits are read from the left, and the first
offence decides the fault: a character that is no digit, or a value past the limit of the sign.
-/

namespace Wiring.Text

/-- Why a text is no 64-bit integer. -/
inductive IntegerFault where
  | empty
  | invalidDigit
  | tooLarge
  | tooSmall
  deriving DecidableEq

/-- The wording of a fault. -/
def IntegerFault.message : IntegerFault → String
  | .empty => "cannot parse integer from empty string"
  | .invalidDigit => "invalid digit found in string"
  | .tooLarge => "number too large to fit in target type"
  | .tooSmall => "number too small to fit in target type"

/-- The value of an ASCII digit. -/
def digit? (c : Char) : Option Nat :=
  if '0' ≤ c ∧ c ≤ '9' then some (c.toNat - '0'.toNat) else none

/-- The number written by the digits `cs` behind digits worth `acc`.  It fails at the first
character that is no digit, and with `past` at the first digit that takes it over `limit`. -/
def readDigits (limit : Nat) (past : IntegerFault) : Nat → List Char → Except IntegerFault Nat
  | acc, [] => .ok acc
  | acc, c :: cs =>
    match digit? c with
    | none => .error .invalidDigit
    | some d =>
      if 10 * acc + d ≤ limit then readDigits limit past (10 * acc + d) cs else .error past

/-- The magnitude written by `cs`, which holds at least one digit. -/
def readMagnitude (limit : Nat) (past : IntegerFault) : List Char → Except IntegerFault Nat
  | [] => .error .invalidDigit
  | cs => readDigits limit past 0 cs

/-- The largest 64-bit integer; the smallest is one further from zero. -/
def largest : Nat := 9223372036854775807

/-- The integer `cs` writes. -/
def readSigned : List Char → Except IntegerFault Int
  | [] => .error .empty
  | '-' :: cs => (readMagnitude (largest + 1) .tooSmall cs).map fun n => -(n : Int)
  | '+' :: cs => (readMagnitude largest .tooLarge cs).map fun n => (n : Int)
  | cs => (readMagnitude largest .tooLarge cs).map fun n => (n : Int)

/-- The 64-bit integer a text writes; blanks are no part of it. -/
def readInteger (s : String) : Except IntegerFault Int64 :=
  (readSigned s.toList).map Int64.ofInt

example : (readInteger "-9223372036854775808").toOption = some Int64.minValue := by decide
example : (readInteger "9223372036854775808").toOption = none := by decide

end Wiring.Text
