import Wiring.Ordered
import Wiring.Resolver.Basic

/-!
# Resolver — references

References to other beans, by name or by type, here or in the parent container; references to a
bean's name alone; and injection points, for which the container chooses.  A bean that was looked
up here is recorded as needed by the resolver's bean, before it is handed out.
-/

namespace Wiring.Resolver

variable {σ : Type}

/-- The bean a reference leads to in the parent container. -/
def lookUpInParent (r : Resolver σ) (parent : Lookup σ) (ref : Reference) : Action σ Managed :=
  match ref.target with
  | .type ty => parent.getByType ty
  | .name name => do parent.getByName (← r.evaluateName name)

/-- The bean a reference leads to in this container, with its name. -/
def findHere (r : Resolver σ) (ref : Reference) : Action σ NamedBean :=
  match ref.target with
  | .type ty => r.collaborators.resolveNamedByType ty
  | .name name => do
    let name ← r.evaluateName name
    return ⟨name, ← r.collaborators.getByName name⟩

/-- The bean a reference leads to in this container, recorded as needed. -/
def lookUpHere (r : Resolver σ) (ref : Reference) : Action σ Managed := do
  let found ← r.findHere ref
  r.collaborators.registerDependent found.name r.bean
  return found.bean

/-- The error for a reference whose bean could not be had. -/
def referenceError (r : Resolver σ) (path : ArgPath) (ref : Reference) (source : Error) : Error :=
  .reference (r.site path) ref.declaredName source

/-- The bean a reference leads to, in this container or in the parent container. -/
def followReference (r : Resolver σ) (path : ArgPath) (ref : Reference) : Action σ Managed :=
  if ref.inParent then do
    match ← r.collaborators.parent with
    | none => Action.fail (.noParent (r.site path) ref.text)
    | some parent => (r.lookUpInParent parent ref).mapError (r.referenceError path ref)
  else (r.lookUpHere ref).mapError (r.referenceError path ref)

/-- The value of the bean a reference leads to. -/
def resolveReference (r : Resolver σ) (path : ArgPath) (ref : Reference) : Action σ Value := do
  return (← r.followReference path ref).toValue

/-- The name of a bean that is known, as text. -/
def resolveName (r : Resolver σ) (path : ArgPath) (name : String) : Action σ Value := do
  let name ← r.evaluateName name
  if ← r.collaborators.containsBean name then return .string name
  else Action.fail (.invalidReference (r.site path) name)

/-- Records those of the names as needed under which a bean is known. -/
def registerCandidates (r : Resolver σ) : List String → StateM σ Unit
  | [] => return
  | name :: names => do
    if ← r.collaborators.containsBean name then r.collaborators.registerDependent name r.bean
    r.registerCandidates names

/-- The value chosen for an injection point. -/
def resolveDependency (r : Resolver σ) (d : Dependency) : Action σ Value := do
  let selection ← r.collaborators.resolveDependency d r.bean
  r.registerCandidates (Ordered.ofList selection.candidates)
  return selection.value

end Wiring.Resolver
