import Wiring.Resolver.Basic

/-!
# Resolver — inner beans

A nested blueprint becomes an object on the spot.  It is merged with the blueprint it stands in; as
a singleton it gets a name nobody uses, the proposed one or the first of the numbered names after
it; it is recorded as part of the resolver's bean; the beans it depends on are made; and then it is
made itself.
-/

namespace Wiring.Resolver

variable {σ : Type}

/-- The first name not in use among `candidate` and the names numbered after it, where `candidate`
has the number `counter`.  At most `tries` names are asked for. -/
def searchName (r : Resolver σ) (base : String) : Nat → Nat → String → Action σ String
  | 0, _, _ => throw .exhausted
  | tries + 1, counter, candidate => do
    if ← r.collaborators.isNameInUse candidate then
      r.searchName base tries (counter + 1) (r.naming.numbered base (counter + 1))
    else return candidate

/-- A name not in use: the proposed one, or the first of the numbered names after it.  With one
name more than there can be names in use, one of them is free. -/
def freshName (r : Resolver σ) (proposed : String) : Action σ String := do
  let bound := r.collaborators.namesInUse (← get)
  r.searchName proposed (bound + 1) 0 proposed

/-- The name of the inner bean a merged blueprint describes: a new one for a singleton, or else the
proposed one. -/
def innerName (r : Resolver σ) (proposed : String) (merged : Blueprint) : Action σ String :=
  if merged.isSingleton then r.freshName proposed else pure proposed

/-- Records and makes the beans an inner bean depends on. -/
def prepare (r : Resolver σ) (inner : String) : List String → Action σ Unit
  | [] => return
  | name :: names => do
    r.collaborators.registerDependent name inner
    let _ ← r.collaborators.getByName name
    r.prepare inner names

/-- Makes the beans a merged blueprint depends on, and then the object it describes. -/
def makeInner (r : Resolver σ) (inner : String) (merged : Blueprint) : Action σ Value := do
  r.prepare inner merged.dependsOn
  match ← r.collaborators.createObject inner merged with
  | .factory factory =>
    return (← r.collaborators.unwrapProduct factory inner (!merged.synthetic)).toValue
  | made => return made.toValue

/-- The object a merged blueprint describes, made under the given name as part of the resolver's
bean. -/
def createInner (r : Resolver σ) (inner : String) (merged : Blueprint) : Action σ Value := do
  r.collaborators.registerContained inner r.bean
  r.makeInner inner merged

/-- The error for a nested blueprint that could not be made into an object. -/
def innerError (r : Resolver σ) (path : ArgPath) (inner : String) (className : Option String)
    (source : Error) : Error :=
  .innerBean (r.site path) inner className source

/-- The object a nested blueprint describes. -/
def resolveInner (r : Resolver σ) (path : ArgPath) (proposed : String) (nested : Blueprint) :
    Action σ Value := do
  let merged ←
    (r.collaborators.mergeBlueprint proposed nested r.blueprint).mapError
      (r.innerError path proposed none)
  let inner ← r.innerName proposed merged
  (r.createInner inner merged).mapError (r.innerError path inner merged.className)

end Wiring.Resolver
