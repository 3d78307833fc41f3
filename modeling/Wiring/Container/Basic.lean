import Wiring.Blueprint.Memory
import Wiring.Edges
import Wiring.Error
import Wiring.Managed
import Wiring.Ordered

/-!
# Containers

A container keeps the blueprints and beans registered under their names, the aliases and types it
knows, the values of placeholders, which bean needs which and which is part of which, and a log of
what it made.  A chain (`Chain`) is a container with those above it.

What happens in a container is kept as its history (`Event`).  Nothing reads it: it is there for
statements about what a container did.
-/

namespace Wiring

/-- An object being made: its name, and the blueprint it is made of. -/
structure Creation where
  name : String
  blueprint : Blueprint

/-- Something that happened in a container. -/
inductive Event where
  /-- A blueprint, a bean or an alias was registered under the name. -/
  | registered (name : String)
  /-- The making of the bean of a definition began. -/
  | began (name : String)
  /-- The making of the bean of a definition ended; a bean that was made is handed out. -/
  | ended (name : String) (bean : Option Managed)
  /-- A bean that was there was handed out. -/
  | found (name : String) (bean : Managed)
  /-- An object was made of the blueprint. -/
  | made (name : String) (blueprint : Blueprint)

/-- A container of beans. -/
structure Container where
  /-- What tells the container from others. -/
  id : String
  definitions : Table Blueprint := .empty
  singletons : Table Managed := .empty
  /-- The name each alias stands for. -/
  aliases : Table String := .empty
  /-- The types loaded by name, beside the built-in ones. -/
  types : Table Ty := .empty
  placeholders : Table Value := .empty
  /-- From a bean to the beans that need it. -/
  dependents : Edges := {}
  /-- From a bean to the beans that are part of it. -/
  contained : Edges := {}
  /-- The objects that were begun, in order. -/
  creations : List Creation := []
  /-- The factories unwrapped, in order, each with whether post-processing was asked for. -/
  unwrapped : List (String × Bool) := []
  /-- The names that were found free for inner beans, in order. -/
  granted : List String := []
  /-- Names reported as candidates of every injection point. -/
  staleCandidates : List String := []
  /-- How many objects have been built. -/
  built : Nat := 0
  /-- What happened, in order. -/
  history : List Event := []

namespace Container

/-- The name an alias stands for; any other name stands for itself. -/
def canonical (c : Container) (name : String) : String :=
  (c.aliases.get? name).getD name

/-- A blueprint or a bean is registered under the name. -/
def holds (c : Container) (name : String) : Bool :=
  c.definitions.contains name || c.singletons.contains name

/-- The name is an alias, has a blueprint or a bean, or is needed by a bean. -/
def isNameInUse (c : Container) (name : String) : Bool :=
  c.aliases.contains name || c.definitions.contains name || c.singletons.contains name ||
    c.dependents.hasSource name

/-- How many names are in use, at most. -/
def namesInUse (c : Container) : Nat :=
  c.aliases.size + c.definitions.size + c.singletons.size + c.dependents.sources.length

/-- Keeps note of what happened. -/
def note (c : Container) (e : Event) : Container :=
  { c with history := c.history ++ [e] }

/-- Makes a type known by its name. -/
def registerType (c : Container) (name : String) : Container :=
  { c with types := c.types.insert name (.named name) }

/-- Registers a blueprint, and the type of its class. -/
def registerBlueprint (c : Container) (name : String) (b : Blueprint) : Container :=
  let c :=
    match b.className with
    | some className => c.registerType className
    | none => c
  { c with definitions := c.definitions.insert name b }.note (.registered name)

/-- Registers a value as a bean, and the type of an object. -/
def registerSingleton (c : Container) (name : String) (v : Value) : Container :=
  let c :=
    match v with
    | .object o => c.registerType o.typeName
    | _ => c
  { c with singletons := c.singletons.insert name (.value v) }.note (.registered name)

/-- Registers the null object. -/
def registerNull (c : Container) (name : String) : Container :=
  { c with singletons := c.singletons.insert name .null }.note (.registered name)

def registerAlias (c : Container) (byname name : String) : Container :=
  { c with aliases := c.aliases.insert byname name }.note (.registered byname)

/-- Gives a placeholder its value. -/
def definePlaceholder (c : Container) (key : String) (v : Value) : Container :=
  { c with placeholders := c.placeholders.insert key v }

/-- Has the name reported as a candidate of every injection point. -/
def reportStaleCandidate (c : Container) (name : String) : Container :=
  { c with staleCandidates := c.staleCandidates ++ [name] }

/-- Records that the second bean needs the first, which is meant by the name it stands for. -/
def registerDependent (c : Container) (dependency dependent : String) : Container :=
  { c with dependents := (c.dependents.register (c.canonical dependency) dependent).2 }

/-- Records that the first bean is part of the second, which needs it. -/
def registerContained (c : Container) (inner owner : String) : Container :=
  { c with contained := (c.contained.register owner inner).2 }.registerDependent inner owner

/-- The bean is an object of the class. -/
def hasClass (className : String) : Managed → Bool
  | .value (.object o) => o.typeName == className
  | _ => false

/-- The names, in order, of the blueprints and the beans of a named type. -/
def candidates (c : Container) : Ty → List String
  | .named className =>
    let defined := c.definitions.entries.filter fun e => e.2.className == some className
    let made := c.singletons.entries.filter fun e => hasClass className e.2
    ((defined.map Prod.fst ++ made.map Prod.fst).foldl
      (fun (names : Table Unit) name => names.insert name ()) .empty).names
  | _ => []

/-- The type a name stands for: a built-in one, or one made known here. -/
def loadType (c : Container) (name : String) : Except Error Ty :=
  match (Ty.ofKeyword? name).or (c.types.get? name) with
  | some ty => .ok ty
  | none => .error (.typeLoad name)

/-- The names of the objects that were begun, in order. -/
def created (c : Container) : List String :=
  c.creations.map Creation.name

/-- How often an object of the name was begun. -/
def creationCount (c : Container) (name : String) : Nat :=
  c.created.count name

/-- The container with what the definition of the name has come to remember. -/
def learn (c : Container) (name : String) (left : Blueprint) : Container :=
  match c.definitions.get? name with
  | some b => { c with definitions := c.definitions.insert name (b.absorb left) }
  | none => c

/-- The container with the bean made of a definition, if it is a singleton. -/
def keep (c : Container) (name : String) (b : Blueprint) (bean : Managed) : Container :=
  if b.isSingleton then { c with singletons := c.singletons.insert name bean } else c

/-- The container when the making of a definition's bean has ended, with the bean or without. -/
def conclude (c : Container) (name : String) (b : Blueprint) (bean : Option Managed) : Container :=
  (bean.elim c (c.keep name b)).note (.ended name bean)

/-- Keeps note of a name found free. -/
def grant (c : Container) (name : String) : Container :=
  { c with granted := c.granted ++ [name] }

/-! ### What is learned and kept -/

theorem learn_eq (c : Container) (name : String) (left : Blueprint) :
    c.learn name left = { c with definitions := (c.learn name left).definitions } := by
  rw [learn]
  split <;> rfl

theorem keep_eq (c : Container) (name : String) (b : Blueprint) (bean : Managed) :
    c.keep name b bean =
      { c with singletons :=
        if b.isSingleton then c.singletons.insert name bean else c.singletons } := by
  rw [keep]
  split <;> rfl

/-- When a making has ended, only the beans that are kept and the history are different. -/
theorem conclude_eq (c : Container) (name : String) (b : Blueprint) (bean : Option Managed) :
    c.conclude name b bean =
      { c with
        singletons :=
          match bean with
          | some bean => if b.isSingleton then c.singletons.insert name bean else c.singletons
          | none => c.singletons
        history := c.history ++ [.ended name bean] } := by
  cases bean with
  | none => rfl
  | some bean => rw [conclude, Option.elim_some, keep_eq]; rfl

/-- A bean that is there when a making has ended was there before, or is the one that was made. -/
theorem singletons_conclude {c : Container} {name other : String} {b : Blueprint}
    {bean : Option Managed} {made : Managed}
    (h : (c.conclude name b bean).singletons.get? other = some made) :
    c.singletons.get? other = some made ∨ other = name ∧ b.isSingleton ∧ bean = some made := by
  rw [conclude_eq] at h
  cases bean with
  | none => exact .inl h
  | some bean =>
      dsimp only at h
      split at h
      next hs =>
        rw [Table.get?_insert] at h
        split at h
        next heq => exact .inr ⟨heq, hs, h⟩
        next => exact .inl h
      next => exact .inl h

end Container

/-- A container with those above it, the nearest first. -/
structure Chain where
  own : Container
  ancestors : List Container := []

namespace Chain

/-- Some container of the chain holds the name, each container giving it the name it stands for
there. -/
def containsIn (c : Container) : List Container → String → Bool
  | [], name => c.holds (c.canonical name)
  | up :: rest, name => c.holds (c.canonical name) || containsIn up rest (c.canonical name)

/-- A blueprint or a bean is registered under the name, here or above. -/
def containsBean (chain : Chain) (name : String) : Bool :=
  containsIn chain.own chain.ancestors name

/-- A blueprint or a bean is registered under the name above the chain's own container. -/
def containsAbove (chain : Chain) (name : String) : Bool :=
  match chain.ancestors with
  | [] => false
  | up :: rest => containsIn up rest name

/-- The chain with its own container changed. -/
def modifyOwn (f : Container → Container) (chain : Chain) : Chain :=
  { chain with own := f chain.own }

end Chain

end Wiring
