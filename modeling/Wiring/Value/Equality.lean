import Wiring.Ordered
import Wiring.Value.Basic

/-!
# Values — equality

Two values are equal (`Value.beq`, written `==`) when they have one kind and equal contents.
Decimals are equal when their words are.  Lists and arrays compare in order; sets, maps and
properties do not: each member of one is paired off with an equal member of the other.  Objects are
equal when they are the same object.

With this equality a set is a list built by `Ordered.add`, and a map or a properties table one
built by `Ordered.put` (`Value.setOf`, `Value.mapOf`, `Value.propertiesOf`).
-/

namespace Wiring

/-- The list without its first member that `p` accepts; `none` if it has no such member. -/
def takeOut? {α : Type} (p : α → Bool) : List α → Option (List α)
  | [] => none
  | x :: xs => if p x then some xs else (takeOut? p xs).map (x :: ·)

namespace Value

mutual

/-- The two values are equal. -/
def beq : Value → Value → Bool
  | null, w => w.isNull
  | bool a, w => match w with | bool b => a == b | _ => false
  | int a, w => match w with | int b => a == b | _ => false
  | decimal a, w => match w with | decimal b => a == b | _ => false
  | char a, w => match w with | char b => a == b | _ => false
  | string a, w => match w with | string b => a == b | _ => false
  | stringArray a, w => match w with | stringArray b => a == b | _ => false
  | array t xs, w => match w with | array u ys => t == u && inOrder xs ys | _ => false
  | list xs, w => match w with | list ys => inOrder xs ys | _ => false
  | set xs, w => match w with | set ys => pairOff xs ys | _ => false
  | map es, w => match w with | map fs => pairOffEntries es fs | _ => false
  | properties es, w => match w with | properties fs => pairOffEntries es fs | _ => false
  | object a, w => match w with | object b => a.same b | _ => false
termination_by structural v => v

/-- The two lists are equal member by member. -/
def inOrder : List Value → List Value → Bool
  | [], ys => ys.isEmpty
  | x :: xs, ys =>
    match ys with
    | [] => false
    | y :: ys => beq x y && inOrder xs ys
termination_by structural xs => xs

/-- Each member of either list has an equal one of its own in the other. -/
def pairOff : List Value → List Value → Bool
  | [], ys => ys.isEmpty
  | x :: xs, ys =>
    match takeOut? (fun y => beq x y) ys with
    | none => false
    | some ys => pairOff xs ys
termination_by structural xs => xs

/-- Each entry of either table has one of its own in the other with an equal key and an equal
value. -/
def pairOffEntries : List (Value × Value) → List (Value × Value) → Bool
  | [], fs => fs.isEmpty
  | (k, v) :: es, fs =>
    match takeOut? (fun f => beq k f.1 && beq v f.2) fs with
    | none => false
    | some fs => pairOffEntries es fs
termination_by structural es => es

end

instance : BEq Value := ⟨beq⟩

/-- The set made by adding values in order. -/
def setOf (values : List Value) : Value :=
  set (Ordered.ofList values)

/-- The map made by putting entries in order. -/
def mapOf (entries : List (Value × Value)) : Value :=
  map (Ordered.ofPairs entries)

/-- The properties table made by putting entries in order. -/
def propertiesOf (entries : List (Value × Value)) : Value :=
  properties (Ordered.ofPairs entries)

end Value

end Wiring
