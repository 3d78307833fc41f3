import Wiring.Decimal.Reader
import Wiring.Error
import Wiring.Value.Text

/-!
# Coercion — values into types

Converting a value into a type (`Value.coerce`).  Every value has the type `any`; null has every
type that is not primitive; numbers, truth values and characters are read from strings; scalars are
written as strings; an object has the type of its own name.
-/

namespace Wiring.Value

/-- A value of a kind with a single text: a string, a number, a truth value or a character. -/
def isScalar : Value → Bool
  | string _ | int _ | decimal _ | bool _ | char _ => true
  | _ => false

/-- The error for a value that does not convert. -/
def conversionError (v : Value) (target : Ty) (reason : String) : Error :=
  .conversion v.text target reason

/-- The integer a text writes, blanks around it aside. -/
def readInt (s : String) : Except Error Value :=
  match Text.readInteger (Text.trim s) with
  | .ok i => .ok (int i)
  | .error fault => .error (conversionError (string s) .int fault.message)

/-- The decimal a text writes, blanks around it aside. -/
def readDecimal (s : String) : Except Error Value :=
  match Decimal.read (Text.trim s) with
  | .ok d => .ok (decimal d)
  | .error fault => .error (conversionError (string s) .decimal fault.message)

/-- The truth value a text names, in any case of ASCII letters, blanks around it aside. -/
def readBool (s : String) : Except Error Value :=
  let word := String.ofList ((Text.trim s).toList.map Char.toLower)
  if word = "true" then .ok (bool true)
  else if word = "false" then .ok (bool false)
  else .error (conversionError (string s) .bool "not a boolean")

/-- The character a text consists of. -/
def readChar (s : String) : Except Error Value :=
  match s.toList with
  | [c] => .ok (char c)
  | _ => .error (conversionError (string s) .char "not a single character")

/-- The value converted into the type. -/
def coerce (target : Ty) (v : Value) : Except Error Value :=
  let incompatible := conversionError v target "incompatible value"
  if target.isAny then .ok v
  else if v.isNull then
    if target.isPrimitive then .error (conversionError v target "null is not a primitive")
    else .ok v
  else
    match target, v with
    | .int, int i => .ok (int i)
    | .int, string s => readInt s
    | .decimal, decimal d => .ok (decimal d)
    | .decimal, int i => .ok (decimal (Decimal.ofInt i.toInt))
    | .decimal, string s => readDecimal s
    | .bool, bool b => .ok (bool b)
    | .bool, string s => readBool s
    | .char, char c => .ok (char c)
    | .char, string s => readChar s
    | .string, v => if v.isScalar then .ok (string v.text) else .error incompatible
    | .named name, object o =>
      if o.typeName = name then .ok (object o) else .error incompatible
    | _, _ => .error incompatible

end Wiring.Value
