import Wiring.Decimal.Basic
import Wiring.Ty

/-!
# Values

`Value` is what a container injects: scalars, collections and objects.  Collections keep the order
in which their members arrived.  An object (`Object`) is known by its identity: one handed in from
outside by its type and label, one built by a container by the container and the number it got
there.  A built object carries what it was built from, which its identity determines.
-/

namespace Wiring

/-- The identity of a built object: the container that built it, and its number there. -/
structure ObjectId where
  home : String
  serial : Nat
  deriving DecidableEq

mutual

/-- A resolved value. -/
inductive Value where
  | null
  | bool (b : Bool)
  | int (i : Int64)
  | decimal (d : Decimal)
  | char (c : Char)
  | string (s : String)
  /-- The texts of a string array, as they stand in a blueprint. -/
  | stringArray (items : List String)
  | array (elementTy : Ty) (values : List Value)
  | list (values : List Value)
  | set (values : List Value)
  | map (entries : List (Value × Value))
  | properties (entries : List (Value × Value))
  | object (o : Object)

/-- An object, and for a built one what it was built from. -/
inductive Object where
  | external (typeName label : String)
  | built (id : ObjectId) (name className : String) (args : List Value)
      (properties : List (String × Value))

end

instance : Inhabited Value := ⟨.null⟩

namespace Object

/-- The name of the object's type; for a built object its class. -/
def typeName : Object → String
  | external typeName _ => typeName
  | built _ _ className _ _ => className

/-- The same object, whatever it holds. -/
def same : Object → Object → Bool
  | external t l, external t' l' => t == t' && l == l'
  | built id _ _ _ _, built id' _ _ _ _ => id == id'
  | _, _ => false

/-- The first property of the given name; an object from outside has none. -/
def property? : Object → String → Option Value
  | external _ _, _ => none
  | built _ _ _ _ properties, name => properties.lookup name

end Object

namespace Value

/-- The value is null. -/
def isNull : Value → Bool
  | null => true
  | _ => false

/-- The text of a string. -/
def string? : Value → Option String
  | string s => some s
  | _ => none

/-- The object of an object value. -/
def object? : Value → Option Object
  | object o => some o
  | _ => none

/-- The name of the value's kind. -/
def kind : Value → String
  | null => "null"
  | bool _ => "bool"
  | int _ => "int"
  | decimal _ => "decimal"
  | char _ => "char"
  | string _ => "string"
  | stringArray _ => "string-array"
  | array _ _ => "array"
  | list _ => "list"
  | set _ => "set"
  | map _ => "map"
  | properties _ => "properties"
  | object _ => "object"

end Value

end Wiring
