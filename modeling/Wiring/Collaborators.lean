import Wiring.Action
import Wiring.Blueprint.Basic
import Wiring.Managed

/-!
# Collaborators

What a resolver works with: the container that owns the beans, the evaluation of texts and the
conversion of values.  All of it may read and change a state `σ` of its own.
-/

namespace Wiring

/-- Looking up beans. -/
structure Lookup (σ : Type) where
  /-- A bean of the name is known. -/
  containsBean : String → StateM σ Bool
  getByName : String → Action σ Managed
  /-- Fails unless exactly one bean has the type. -/
  getByType : Ty → Action σ Managed

/-- A bean with its name. -/
structure NamedBean where
  name : String
  bean : Managed

/-- What was chosen for an injection point, and the names of the beans it was made from. -/
structure Selection where
  value : Value
  candidates : List String

/-- What a resolver works with. -/
structure Collaborators (σ : Type) extends Lookup σ where
  /-- The container above this one, if there is one. -/
  parent : StateM σ (Option (Lookup σ))
  /-- The one bean of the type, with its name. -/
  resolveNamedByType : Ty → Action σ NamedBean
  /-- The value for an injection point of the named bean. -/
  resolveDependency : Dependency → String → Action σ Selection
  /-- Records that the second bean needs the first. -/
  registerDependent : String → String → StateM σ Unit
  /-- Records that the first bean is part of the second. -/
  registerContained : String → String → StateM σ Unit
  isNameInUse : String → StateM σ Bool
  /-- How many names are in use, at most. -/
  namesInUse : σ → Nat
  /-- The nested blueprint of the given name, completed by the blueprint it stands in. -/
  mergeBlueprint : String → Blueprint → Blueprint → Action σ Blueprint
  createObject : String → Blueprint → Action σ Managed
  /-- The product of a factory; the flag asks for post-processing. -/
  unwrapProduct : Value → String → Bool → Action σ Managed
  loadType : String → Action σ Ty
  /-- The value of a text that stands in the blueprint. -/
  evaluate : String → Blueprint → Action σ Value
  coerce : Value → Ty → Action σ Value

end Wiring
