import Wiring.Value.Text

/-!
# Argument paths

Where in an argument a value stands: the argument's name, then a position in a collection or a key
of a map for each level below it.
-/

namespace Wiring

/-- A place in an argument. -/
inductive ArgPath where
  | root (name : String)
  | index (parent : ArgPath) (i : Nat)
  | key (parent : ArgPath) (k : Value)

namespace ArgPath

/-- The path with each step in brackets. -/
def text : ArgPath → String
  | root name => name
  | index parent i => parent.text ++ "[" ++ toString i ++ "]"
  | key parent k => parent.text ++ "[" ++ k.text ++ "]"

/-- The name of the argument. -/
def rootName : ArgPath → String
  | root name => name
  | index parent _ => parent.rootName
  | key parent _ => parent.rootName

/-- The count of steps below the argument. -/
def depth : ArgPath → Nat
  | root _ => 0
  | index parent _ => parent.depth + 1
  | key parent _ => parent.depth + 1

end ArgPath

end Wiring
