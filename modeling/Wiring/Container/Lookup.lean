import Wiring.Collaborators
import Wiring.Container.Basic

/-!
# Containers — look-ups

Finding a bean by name, by type, or for an injection point.  A bean that is only defined is made on
the spot, by an action these look-ups are given; a singleton is kept once it is made.  What a
container does not know it asks the container above for, the name as it stands here.
-/

namespace Wiring.Chain

variable {α : Type}

/-- An action on the containers above; `orElse` where there are none. -/
def inParent (orElse : Action Chain α) (x : Action Chain α) : Action Chain α :=
  ExceptT.mk fun chain =>
    match chain.ancestors with
    | [] => orElse.run chain
    | up :: rest =>
      let (outcome, above) := x.run ⟨up, rest⟩
      (outcome, ⟨chain.own, above.own :: above.ancestors⟩)

/-- The product of a factory: what its property `product` holds. -/
def unwrapProduct (factory : Value) (name : String) (postProcess : Bool) :
    Action Chain Managed := do
  modify (modifyOwn fun c => { c with unwrapped := c.unwrapped ++ [(name, postProcess)] })
  match factory.object?.bind fun o => o.property? "product" with
  | none => Action.fail (.beanCreation name "factory has no product")
  | some .null => return .null
  | some product => return .value product

/-- How an object is made of a blueprint under a name, and what the blueprint is left with. -/
abbrev Maker := String → Blueprint → StateM Chain (Resolved Blueprint Managed)

/-- Makes the object a definition describes.  What the definition has come to remember is kept, also
when the object could not be made. -/
def makeDefined (make : Maker) (name : String) (b : Blueprint) : Action Chain Managed :=
  ExceptT.mk do
    let made ← make name b
    modify (modifyOwn fun c => c.learn name made.node)
    return made.outcome

/-- The bean a definition describes: the object made of it, or the product of the factory made of
it. -/
def makeBean (make : Maker) (name : String) (b : Blueprint) : Action Chain Managed := do
  match ← makeDefined make name b with
  | .factory factory => unwrapProduct factory name true
  | bean => return bean

/-- Makes the bean a definition describes.  A singleton is kept. -/
def realize (make : Maker) (name : String) (b : Blueprint) : Action Chain Managed :=
  ExceptT.mk do
    modify (modifyOwn fun c => c.note (.began name))
    let outcome ← (makeBean make name b).run
    modify (modifyOwn fun c => c.conclude name b outcome.toOption)
    return outcome

/-- The bean of the name in this container or in one of the `height` containers above it. -/
def findByName (make : Maker) : Nat → String → Action Chain Managed
  | height, name => do
    let c := (← get).own
    let name := c.canonical name
    match c.singletons.get? name, c.definitions.get? name with
    | some bean, _ => do
      modify (modifyOwn fun c => c.note (.found name bean))
      return bean
    | none, some b => realize make name b
    | none, none =>
      match height with
      | 0 => Action.fail (.noSuchBean name)
      | height + 1 => inParent (Action.fail (.noSuchBean name)) (findByName make height name)

/-- The bean of the name. -/
def getByName (make : Maker) (name : String) : Action Chain Managed := do
  findByName make (← get).ancestors.length name

/-- The one bean of the type in this container, with its name. -/
def resolveNamedByType (make : Maker) (ty : Ty) : Action Chain NamedBean := do
  match (← get).own.candidates ty with
  | [] => Action.fail (.noSuchBeanOfType ty)
  | [name] => return ⟨name, ← getByName make name⟩
  | names => Action.fail (.noUniqueBean ty names)

/-- The bean of the type in this container or in one of the `height` containers above it: the next
one is asked when this one reports that no bean has a type. -/
def findByType (make : Maker) : Nat → Ty → Action Chain Managed
  | height, ty => ExceptT.mk fun chain =>
    match (resolveNamedByType make ty).run chain with
    | (.error (.error (.noSuchBeanOfType missing)), chain) =>
      match height with
      | 0 => (.error (.error (.noSuchBeanOfType missing)), chain)
      | height + 1 =>
        (inParent (Action.fail (.noSuchBeanOfType missing)) (findByType make height ty)).run chain
    | (.error stop, chain) => (.error stop, chain)
    | (.ok found, chain) => (.ok found.bean, chain)

/-- The bean of the type. -/
def getByType (make : Maker) (ty : Ty) : Action Chain Managed := do
  findByType make (← get).ancestors.length ty

/-- The bean chosen among those of the type: the only one, or the one the injection point is named
after.  Without any, an injection point that is not required gets none. -/
def choose (d : Dependency) : List String → Except Error (Option String)
  | [] => if d.required then .error (.noSuchBeanOfType d.ty) else .ok none
  | [name] => .ok (some name)
  | names => if d.name ∈ names then .ok (some d.name) else .error (.noUniqueBean d.ty names)

/-- The value for an injection point of the named bean, which is no candidate itself.  The bean
chosen is reported first, then the stale candidates. -/
def resolveDependency (make : Maker) (d : Dependency) (requesting : String) :
    Action Chain Selection := do
  let names := ((← get).own.candidates d.ty).filter fun name => name != requesting
  match ← Action.ofExcept (choose d names) with
  | none => return ⟨.null, []⟩
  | some name =>
    let bean ← getByName make name
    return ⟨bean.toValue, Ordered.ofList (name :: (← get).own.staleCandidates)⟩

/-- The look-ups of the chain. -/
def lookups (make : Maker) : Lookup Chain where
  containsBean name := return (← get).containsBean name
  getByName := getByName make
  getByType := getByType make

/-- The look-ups of the containers above. -/
def parentLookups (make : Maker) : Lookup Chain where
  containsBean name := return (← get).containsAbove name
  getByName name := inParent (Action.fail (.noSuchBean name)) (getByName make name)
  getByType ty := inParent (Action.fail (.noSuchBeanOfType ty)) (getByType make ty)

/-- The look-ups of the containers above, if there are any. -/
def parent (make : Maker) : StateM Chain (Option (Lookup Chain)) :=
  return if (← get).ancestors.isEmpty then none else some (parentLookups make)

end Wiring.Chain
