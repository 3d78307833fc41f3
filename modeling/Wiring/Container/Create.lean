import Wiring.Coercion
import Wiring.Container.Lookup
import Wiring.Evaluation
import Wiring.Resolver.Tree

/-!
# Containers — making objects

A container makes an object by resolving the arguments and properties of its blueprint, with itself
as the resolver's collaborator: so making one object may make others.  `Chain.create` bounds how
deep this may go; a definition that needs itself reaches any bound.

`Chain.build` also answers with the blueprint as its values left it, with what they remember.  What
becomes of that is up to who holds the blueprint: a definition keeps it (`makeDefined`), the merged
copy of a nested blueprint is given up with it.
-/

namespace Wiring.Chain

/-- The class of factories. -/
def factoryClass : String := "test.Factory"

/-- The class of the null object. -/
def nullClass : String := "test.Null"

/-- The class whose objects cannot be made. -/
def failingClass : String := "test.Failing"

/-- A nested blueprint, which must have a class, completed by the blueprint it stands in: a
singleton takes the scope of an owner that is none. -/
def mergeBlueprint (name : String) (nested owner : Blueprint) : Except Error Blueprint :=
  if nested.className.isNone then
    .error (.other ("inner blueprint '" ++ name ++ "' declares no class"))
  else if !owner.isSingleton && nested.isSingleton then .ok { nested with scope := owner.scope }
  else .ok nested

/-- The name is in use in the own container.  A name that is not is granted: whoever asks takes it
at once. -/
def isNameInUse (name : String) : StateM Chain Bool := do
  if (← get).own.isNameInUse name then return true
  modify (modifyOwn fun c => c.grant name)
  return false

/-- The chain as the collaborator of a resolver.  A container fills in placeholders in the texts of
the beans it makes; texts may be evaluated otherwise for a bean it does not make. -/
def collaborators (make : Maker) (evaluation : Evaluation := .placeholders) :
    Collaborators Chain where
  toLookup := lookups make
  parent := parent make
  resolveNamedByType := resolveNamedByType make
  resolveDependency := resolveDependency make
  registerDependent a b := modify (modifyOwn fun c => c.registerDependent a b)
  registerContained a b := modify (modifyOwn fun c => c.registerContained a b)
  isNameInUse := isNameInUse
  namesInUse chain := chain.own.namesInUse
  mergeBlueprint name nested owner := Action.ofExcept (mergeBlueprint name nested owner)
  createObject name b := ExceptT.mk do return (← make name b).outcome
  unwrapProduct := unwrapProduct
  loadType name := do Action.ofExcept ((← get).own.loadType name)
  evaluate text _ := do Action.ofExcept (evaluation.evaluate (← get).own.placeholders text)
  coerce v ty := Action.ofExcept (v.coerce ty)

/-- The name of an argument without one. -/
def argName (i : Nat) : String :=
  "constructor argument with index " ++ toString i

/-- The values of arguments, the first of which has the position `i`. -/
def resolveArgs (r : Resolver Chain) (i : Nat) :
    List Raw → StateM Chain (Resolved (List Raw) (List Value))
  | [] => return ⟨[], .ok []⟩
  | raw :: raws => do
    let first ← r.resolveNamed (argName i) raw
    match first.outcome with
    | .error stop => return ⟨first.node :: raws, .error stop⟩
    | .ok v =>
      let rest ← resolveArgs r (i + 1) raws
      return ⟨first.node :: rest.node, rest.outcome.map (v :: ·)⟩

/-- The values of properties, each under its name. -/
def resolveProperties (r : Resolver Chain) :
    List (String × Raw) → StateM Chain (Resolved (List (String × Raw)) (List (String × Value)))
  | [] => return ⟨[], .ok []⟩
  | (name, raw) :: ps => do
    let first ← r.resolveNamed name raw
    match first.outcome with
    | .error stop => return ⟨(name, first.node) :: ps, .error stop⟩
    | .ok v =>
      let rest ← resolveProperties r ps
      return ⟨(name, first.node) :: rest.node, rest.outcome.map ((name, v) :: ·)⟩

/-- A new object of the own container. -/
def newObject (name className : String) (args : List Value) (properties : List (String × Value)) :
    StateM Chain Value :=
  modifyGet fun chain =>
    (.object (.built ⟨chain.own.id, chain.own.built⟩ name className args properties),
      chain.modifyOwn fun c => { c with built := c.built + 1 })

/-- The object a blueprint describes, its values resolved with the given collaborators. -/
def instantiate (c : Collaborators Chain) (name : String) (b : Blueprint) :
    StateM Chain (Resolved Blueprint Value) := do
  let r : Resolver Chain := { collaborators := c, bean := name, blueprint := b }
  let args ← resolveArgs r 0 b.args
  match args.outcome with
  | .error stop => return ⟨{ b with args := args.node }, .error stop⟩
  | .ok argValues =>
    let properties ← resolveProperties r b.properties
    let left := { b with args := args.node, properties := properties.node }
    match properties.outcome with
    | .error stop => return ⟨left, .error stop⟩
    | .ok propertyValues =>
      return ⟨left, .ok (← newObject name (b.className.getD "object") argValues propertyValues)⟩

/-- What an object of the class is to the container. -/
def manage (className : String) (v : Value) : Managed :=
  if className = nullClass then .null
  else if className = factoryClass then .factory v
  else .value v

/-- Makes the object a blueprint describes; `make` makes those it needs. -/
def build (make : Maker) (name : String) (b : Blueprint) :
    StateM Chain (Resolved Blueprint Managed) := do
  modify (modifyOwn fun c => { c with creations := c.creations ++ [⟨name, b⟩] })
  let className := b.className.getD ""
  if className = failingClass then
    (Action.fail (.beanCreation name "constructor threw")).leaving b
  else
    let built ← instantiate (collaborators make) name b
    match built.outcome with
    | .error stop => return ⟨built.node, .error stop⟩
    | .ok v =>
      modify (modifyOwn fun c => c.note (.made name b))
      return ⟨built.node, .ok (manage className v)⟩

/-- Makes the object a blueprint describes, with at most `depth` objects being made inside one
another. -/
def create : Nat → Maker
  | 0, _, b => return ⟨b, .error .exhausted⟩
  | depth + 1, name, b => build (create depth) name b

end Wiring.Chain
