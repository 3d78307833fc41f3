import Wiring.Tagged
import Wiring.Text.Blank

/-!
# Types

`Ty` is the type a resolved value can be converted into.  `any` is the top type: nothing is
converted for it.  The built-in types have spellings of their own (`Ty.ofKeyword?`), every other
type is known by its name.  Types are ordered by kind, and named types by their names.
-/

namespace Wiring

/-- What a resolved value can be converted into. -/
inductive Ty where
  | any
  | bool
  | int
  | decimal
  | char
  | string
  | named (name : String)
  deriving DecidableEq, Inhabited

namespace Ty

/-- The name of the type. -/
def text : Ty → String
  | any => "any"
  | bool => "bool"
  | int => "int"
  | decimal => "decimal"
  | char => "char"
  | string => "string"
  | named name => name

/-- The built-in type a keyword stands for; blanks around it do not count. -/
def ofKeyword? (keyword : String) : Option Ty :=
  let word := Text.trim keyword
  if word ∈ ["any", "object"] then some any
  else if word ∈ ["bool", "boolean"] then some bool
  else if word ∈ ["int", "integer", "long", "short", "i8", "i16", "i32", "i64"] then some int
  else if word ∈ ["decimal", "double", "float", "f32", "f64"] then some decimal
  else if word = "char" then some char
  else if word ∈ ["string", "str", "String"] then some string
  else none

/-- Nothing is converted for this type. -/
def isAny : Ty → Bool
  | any => true
  | _ => false

/-- A type that null does not inhabit. -/
def isPrimitive : Ty → Bool
  | bool | int | decimal | char => true
  | _ => false

/-- The place of a kind of type in the order. -/
def rank : Ty → Nat
  | any => 0
  | bool => 1
  | int => 2
  | decimal => 3
  | char => 4
  | string => 5
  | named _ => 6

/-- The order of types: by kind, and named types by name. -/
def order : Ty → Ty → Ordering
  | named a, named b => compareOfLessAndEq a b
  | a, b => compare a.rank b.rank

/-- The type as a case of its kind. -/
def tagged : Ty → Tagged
  | any => ⟨"Any", none⟩
  | bool => ⟨"Bool", none⟩
  | int => ⟨"Int", none⟩
  | decimal => ⟨"Decimal", none⟩
  | char => ⟨"Char", none⟩
  | string => ⟨"String", none⟩
  | named name => ⟨"Named", some name⟩

/-- The type that is written as the given case. -/
def ofTagged? : Tagged → Option Ty
  | ⟨"Any", none⟩ => some any
  | ⟨"Bool", none⟩ => some bool
  | ⟨"Int", none⟩ => some int
  | ⟨"Decimal", none⟩ => some decimal
  | ⟨"Char", none⟩ => some char
  | ⟨"String", none⟩ => some string
  | ⟨"Named", some name⟩ => some (named name)
  | _ => none

theorem ofTagged?_tagged (ty : Ty) : ofTagged? ty.tagged = some ty := by
  cases ty <;> rfl

end Ty

end Wiring
