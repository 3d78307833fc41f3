/-!
# Naming — generated names

How names are made for beans that have none of their own.
-/

namespace Wiring

/-- What generated names are put together with. -/
structure Naming where
  /-- Stands between a name and what tells it apart. -/
  separator : String := "#"
  /-- What the name of an anonymous bean starts with. -/
  anonymous : String := "(inner)"
  deriving DecidableEq

namespace Naming

/-- The name of an anonymous bean known by `token`. -/
def innerName (naming : Naming) (token : String) : String :=
  naming.anonymous ++ naming.separator ++ token

/-- The name number `counter` made from `base`. -/
def numbered (naming : Naming) (base : String) (counter : Nat) : String :=
  base ++ naming.separator ++ toString counter

end Naming

end Wiring
