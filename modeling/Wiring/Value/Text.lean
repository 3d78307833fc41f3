import Wiring.Decimal.Layout
import Wiring.Value.Basic

/-!
# Values — text

The text of a value, as messages, names and argument paths show it.  A string and a character stand
for themselves, without quotes; collections are listed in brackets, tables in braces.  An object
shows its type; its identity is not part of the text.
-/

namespace Wiring

/-- The type of the object, with a mark in place of its identity. -/
def Object.text (o : Object) : String :=
  o.typeName ++ "@*"

/-- Texts in brackets, separated by commas. -/
def bracketed (items : List String) : String :=
  "[" ++ String.intercalate ", " items ++ "]"

/-- Texts in braces, separated by commas. -/
def braced (items : List String) : String :=
  "\x7b" ++ String.intercalate ", " items ++ "\x7d"

namespace Value

mutual

/-- The value as text. -/
def text : Value → String
  | null => "null"
  | bool b => if b then "true" else "false"
  | int i => toString i.toInt
  | decimal d => d.text
  | char c => String.singleton c
  | string s => s
  | stringArray items => bracketed items
  | array _ values => bracketed (texts values)
  | list values => bracketed (texts values)
  | set values => bracketed (texts values)
  | map entries => braced (entryTexts entries)
  | properties entries => braced (entryTexts entries)
  | object o => o.text
termination_by structural v => v

/-- The texts of a list of values. -/
def texts : List Value → List String
  | [] => []
  | v :: vs => v.text :: texts vs
termination_by structural vs => vs

/-- The texts of entries, the key before an equals sign. -/
def entryTexts : List (Value × Value) → List String
  | [] => []
  | (k, v) :: es => (k.text ++ "=" ++ v.text) :: entryTexts es
termination_by structural es => es

end

end Value

end Wiring
