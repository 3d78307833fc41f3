import Wiring.Blueprint.Sharing
import Wiring.Container.Create

/-!
# Sessions

Several containers, some above others, a bean whose values are resolved, and raw values bound to
names.  A bound raw value keeps what it remembers from one resolution to the next.  What a blueprint
in a cell comes to remember, by order of the session or because an object was made of it, is
remembered wherever the cell is used (`Session.refresh`).
-/

namespace Wiring

/-- A container of a session, with the one above it. -/
structure Member where
  container : Container
  parent : Option String := none

/-- Containers and raw values, and the bean they are resolved for. -/
structure Session where
  members : List Member
  /-- The name of the bean values are resolved for. -/
  owner : String
  blueprint : Blueprint
  naming : Naming := {}
  /-- How the texts of that bean's values are evaluated. -/
  evaluation : Evaluation := .placeholders
  /-- The raw values bound to names. -/
  bound : List (String × Raw) := []
  shelf : Shelf := {}

namespace Session

/-- The session of new containers, each given by its identity and that of the one above it. -/
def start (containers : List (String × Option String)) (owner : String) (blueprint : Blueprint)
    (naming : Naming := {}) (evaluation : Evaluation := .placeholders) (shelf : Shelf := {}) :
    Session where
  members := containers.map fun (id, parent) => { container := { id }, parent }
  owner
  blueprint
  naming
  evaluation
  shelf

/-- The container of the given identity. -/
def member? (s : Session) (id : String) : Option Member :=
  s.members.find? fun m => m.container.id == id

/-- The containers from the given one upwards, at most `n` of them. -/
def upwards (s : Session) : Nat → Option String → List Container
  | n + 1, some id =>
    match s.member? id with
    | some m => m.container :: s.upwards n m.parent
    | none => []
  | _, _ => []

/-- The container of the given identity with those above it. -/
def chain (s : Session) (id : String) : Chain :=
  match s.upwards s.members.length (some id) with
  | own :: ancestors => ⟨own, ancestors⟩
  | [] => ⟨{ id }, []⟩

/-- The session with the containers of a chain as they are now. -/
def store (s : Session) (chain : Chain) : Session :=
  { s with
    members := s.members.map fun m =>
      match (chain.own :: chain.ancestors).find? fun c => c.id == m.container.id with
      | some c => { m with container := c }
      | none => m }

/-- An action on a container and those above it. -/
def inChain {α : Type} (id : String) (x : Action Chain α) : Action Session α :=
  ExceptT.mk fun s =>
    let (outcome, chain) := x.run (s.chain id)
    (outcome, s.store chain)

/-- A change of a container. -/
def inContainer (id : String) (f : Container → Container) : Action Session Unit :=
  inChain id (modify (Chain.modifyOwn f))

/-- The session with `new` in every use of the cell. -/
def refresh (cell : Nat) (new : Blueprint) (s : Session) : Session :=
  { s with
    blueprint := Raw.refreshBlueprint cell new s.blueprint
    bound := s.bound.map fun (name, raw) => (name, Raw.refresh cell new raw)
    shelf := s.shelf.refresh cell new
    members := s.members.map fun m =>
      { m with container :=
        { m.container with
          definitions := m.container.definitions.map (Raw.refreshBlueprint cell new) } } }

/-- The raw value bound to a name; null if there is none. -/
def boundRaw (s : Session) (name : String) : Raw :=
  (s.bound.lookup name).getD .null

/-- Binds a raw value to a name. -/
def bind (name : String) (raw : Raw) (s : Session) : Session :=
  { s with bound := Ordered.put s.bound name raw }

/-- Changes the place a path leads to in a bound raw value, and in every use of the cell it lies
in. -/
def editBound (name : String) (path : List Nat) (f : Raw → Raw) (s : Session) : Session :=
  let raw := (s.boundRaw name).editAt f path
  let s := s.bind name raw
  match raw.cellOn? path with
  | some (cell, new) => s.refresh cell new
  | none => s

/-- How deep objects may be made inside one another. -/
def depthLimit : Nat := 1000000

/-- How objects are made in a session. -/
def maker : Chain.Maker := Chain.create depthLimit

/-- The resolver of the session's bean. -/
def resolver (s : Session) : Resolver Chain where
  collaborators := Chain.collaborators maker s.evaluation
  bean := s.owner
  blueprint := s.blueprint
  naming := s.naming

end Session

end Wiring
