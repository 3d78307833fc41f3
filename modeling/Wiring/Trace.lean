import Wiring.Collaborators

/-!
# Traces — the calls made on collaborators

`Collaborators.traced` answers as the collaborators do and keeps every call, with its arguments, in
order.  A call is kept before it is answered, so a call that fails is kept too.
-/

namespace Wiring

/-- A look-up. -/
inductive Query where
  | containsBean (name : String)
  | getByName (name : String)
  | getByType (ty : Ty)

/-- A call on collaborators. -/
inductive Call where
  | lookup (q : Query)
  | parent
  /-- A look-up in the container above. -/
  | inParent (q : Query)
  | resolveNamedByType (ty : Ty)
  | resolveDependency (d : Dependency) (requesting : String)
  | registerDependent (dependency dependent : String)
  | registerContained (inner owner : String)
  | isNameInUse (name : String)
  | mergeBlueprint (name : String) (nested owner : Blueprint)
  | createObject (name : String) (blueprint : Blueprint)
  | unwrapProduct (factory : Value) (name : String) (postProcess : Bool)
  | loadType (name : String)
  | evaluate (text : String) (blueprint : Blueprint)
  | coerce (v : Value) (target : Ty)

/-- A state with the calls made so far. -/
structure Traced (σ : Type) where
  state : σ
  calls : List Call := []

namespace Traced

variable {σ α : Type}

/-- The computation on the state, with a call kept. -/
def after (call : Call) (x : StateM σ α) : StateM (Traced σ) α := fun t =>
  let (a, s) := x.run t.state
  (a, ⟨s, t.calls ++ [call]⟩)

/-- The action on the state, with a call kept. -/
def act (call : Call) (x : Action σ α) : Action (Traced σ) α :=
  ExceptT.mk (after call x.run)

end Traced

/-- Look-ups that keep the calls made. -/
def Lookup.traced {σ : Type} (call : Query → Call) (l : Lookup σ) : Lookup (Traced σ) where
  containsBean name := Traced.after (call (.containsBean name)) (l.containsBean name)
  getByName name := Traced.act (call (.getByName name)) (l.getByName name)
  getByType ty := Traced.act (call (.getByType ty)) (l.getByType ty)

/-- Collaborators that keep the calls made. -/
def Collaborators.traced {σ : Type} (c : Collaborators σ) : Collaborators (Traced σ) where
  toLookup := c.toLookup.traced .lookup
  parent := Traced.after .parent do return (← c.parent).map (Lookup.traced .inParent)
  resolveNamedByType ty := Traced.act (.resolveNamedByType ty) (c.resolveNamedByType ty)
  resolveDependency d bean := Traced.act (.resolveDependency d bean) (c.resolveDependency d bean)
  registerDependent a b := Traced.after (.registerDependent a b) (c.registerDependent a b)
  registerContained a b := Traced.after (.registerContained a b) (c.registerContained a b)
  isNameInUse name := Traced.after (.isNameInUse name) (c.isNameInUse name)
  namesInUse t := c.namesInUse t.state
  mergeBlueprint name nested owner :=
    Traced.act (.mergeBlueprint name nested owner) (c.mergeBlueprint name nested owner)
  createObject name b := Traced.act (.createObject name b) (c.createObject name b)
  unwrapProduct factory name post :=
    Traced.act (.unwrapProduct factory name post) (c.unwrapProduct factory name post)
  loadType name := Traced.act (.loadType name) (c.loadType name)
  evaluate text b := Traced.act (.evaluate text b) (c.evaluate text b)
  coerce v ty := Traced.act (.coerce v ty) (c.coerce v ty)

end Wiring
