import Wiring.Value.Equality

/-!
# Managed objects

What a container hands back for a bean: a value, a factory whose product is the value to use, or
the null object, which is a bean like any other.
-/

namespace Wiring

/-- What stands for a bean in a container. -/
inductive Managed where
  | value (v : Value)
  | factory (v : Value)
  /-- The bean is null, which is not the same as no bean. -/
  | null

namespace Managed

/-- The value to inject. -/
def toValue : Managed → Value
  | value v | factory v => v
  | null => .null

/-- The same kind of object with equal values. -/
def beq : Managed → Managed → Bool
  | value v, value w => v == w
  | factory v, factory w => v == w
  | null, null => true
  | _, _ => false

instance : BEq Managed := ⟨beq⟩

end Managed

end Wiring
