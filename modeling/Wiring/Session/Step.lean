import Wiring.Session.Basic

/-!
# Sessions — steps

What may be done in a session (`Step`), what comes of it (`Answer`), and what its containers made
on the way (`Activity`).  A script is a list of steps, each with its container (`Entry`).
-/

namespace Wiring

/-- A raw value to resolve: one given here, or one bound to a name. -/
inductive Source where
  | given (raw : Raw)
  | bound (name : String)

/-- Something to do in a session. -/
inductive Step where
  | registerBlueprint (name : String) (b : Blueprint)
  | registerSingleton (name : String) (v : Value)
  | registerNull (name : String)
  | registerType (name : String)
  | registerAlias (byname name : String)
  | reportStaleCandidate (name : String)
  | definePlaceholder (key : String) (v : Value)
  /-- Values are resolved for this bean from now on. -/
  | changeOwner (name : String) (b : Blueprint)
  | bind (name : String) (raw : Raw)
  /-- Binds what is bound to the first name to the second as well. -/
  | copy (name copy : String)
  | resolve (source : Source) (path : ArgPath)
  | inspect (name : String)
  | markDynamic (name : String) (path : List Nat)
  | remember (name : String) (path : List Nat) (ty : Ty)
  | containsBean (name : String)
  | isNameInUse (name : String)
  | getByName (name : String)
  | getByType (ty : Ty)
  | resolveNamedByType (ty : Ty)
  | resolveDependency (d : Dependency) (requesting : String)
  | registerDependent (dependency dependent : String)
  | registerContained (inner owner : String)
  | loadType (name : String)
  | merge (name : String) (nested owner : Blueprint)
  /-- Makes an object of the blueprint in a cell, which keeps what the blueprint remembers. -/
  | create (name : String) (cell : Nat) (b : Blueprint)
  | unwrap (factory : Value) (name : String) (postProcess : Bool)
  | dependents (name : String)
  | contained (name : String)
  | hasDependency (dependency dependent : String)
  | creationCount (name : String)
  | hasParent

/-- A step in a script: its container, and the shelf as it was left when the step was read. -/
structure Entry where
  container : String
  step : Step
  shelf : Shelf := {}

/-- What comes of a step. -/
inductive Answer where
  | done
  | value (v : Value)
  | managed (m : Managed)
  | named (b : NamedBean)
  | selection (s : Selection)
  | flag (b : Bool)
  | type (ty : Ty)
  | blueprint (b : Blueprint)
  | raw (r : Raw)
  | names (ns : List String)
  | count (n : Nat)

/-- What a container made and unwrapped during a step. -/
structure Activity where
  container : String
  created : List String
  unwrapped : List (String × Bool)

namespace Raw

/-- The literal marked dynamic; other raw values as they are. -/
def markDynamic : Raw → Raw
  | literal l => literal l.markDynamic
  | r => r

/-- The literal or array with its type known, if it did not know one. -/
def remember (ty : Ty) : Raw → Raw
  | literal l => literal (l.remember ty)
  | array typeName known es => array typeName (some (known.getD ty)) es
  | r => r

/-- The literal is marked dynamic. -/
def isDynamic : Raw → Bool
  | literal l => l.dynamic
  | _ => false

/-- The type a literal or an array remembers. -/
def remembered? : Raw → Option Ty
  | literal l => l.target
  | array _ known _ => known
  | _ => none

end Raw

namespace Session

/-- Resolves a raw value for the session's bean.  A bound one is bound anew, as resolution left
it. -/
def resolve (container : String) (path : ArgPath) : Source → Action Session Value
  | .given raw => do
    let r := (← get).resolver
    inChain container (ExceptT.mk do return (← r.resolve path raw).outcome)
  | .bound name => do
    let s ← get
    let resolved ← inChain container (ExceptT.lift (s.resolver.resolve path (s.boundRaw name)))
    modify (bind name resolved.node)
    ExceptT.mk (pure resolved.outcome)

/-- Makes an object of the blueprint in a cell.  What the blueprint remembers then is remembered in
every use of the cell, also when the object could not be made. -/
def create (container name : String) (cell : Nat) (b : Blueprint) : Action Session Managed := do
  let built ← inChain container (ExceptT.lift (Chain.build maker name b))
  modify (refresh cell built.node)
  ExceptT.mk (pure built.outcome)

/-- Asks a container. -/
def ask {α : Type} (container : String) (f : Chain → α) : Action Session α := do
  return f ((← get).chain container)

/-- Does a step with the given container. -/
def perform (container : String) : Step → Action Session Answer
  | .registerBlueprint name b => do
    inContainer container fun c => c.registerBlueprint name b
    return .done
  | .registerSingleton name v => do
    inContainer container fun c => c.registerSingleton name v
    return .done
  | .registerNull name => do
    inContainer container fun c => c.registerNull name
    return .done
  | .registerType name => do
    inContainer container fun c => c.registerType name
    return .done
  | .registerAlias byname name => do
    inContainer container fun c => c.registerAlias byname name
    return .done
  | .reportStaleCandidate name => do
    inContainer container fun c => c.reportStaleCandidate name
    return .done
  | .definePlaceholder key v => do
    inContainer container fun c => c.definePlaceholder key v
    return .done
  | .changeOwner name b => do
    modify fun s => { s with owner := name, blueprint := b }
    return .done
  | .bind name raw => do
    modify (bind name raw)
    return .done
  | .copy name copy => do
    modify fun s => s.bind copy (s.boundRaw name)
    return .done
  | .resolve source path => return .value (← resolve container path source)
  | .inspect name => return .raw ((← get).boundRaw name)
  | .markDynamic name path => do
    modify (editBound name path Raw.markDynamic)
    return .flag ((((← get).boundRaw name).at? path).any Raw.isDynamic)
  | .remember name path ty => do
    modify (editBound name path (Raw.remember ty))
    return .type (((((← get).boundRaw name).at? path).bind Raw.remembered?).getD ty)
  | .containsBean name => return .flag (← ask container fun chain => chain.containsBean name)
  | .isNameInUse name => return .flag (← ask container fun chain => chain.own.isNameInUse name)
  | .getByName name => return .managed (← inChain container (Chain.getByName maker name))
  | .getByType ty => return .managed (← inChain container (Chain.getByType maker ty))
  | .resolveNamedByType ty =>
    return .named (← inChain container (Chain.resolveNamedByType maker ty))
  | .resolveDependency d requesting =>
    return .selection (← inChain container (Chain.resolveDependency maker d requesting))
  | .registerDependent dependency dependent => do
    inContainer container fun c => c.registerDependent dependency dependent
    return .done
  | .registerContained inner owner => do
    inContainer container fun c => c.registerContained inner owner
    return .done
  | .loadType name => do
    return .type (← Action.ofExcept (← ask container fun chain => chain.own.loadType name))
  | .merge name nested owner =>
    return .blueprint (← Action.ofExcept (Chain.mergeBlueprint name nested owner))
  | .create name cell b => return .managed (← create container name cell b)
  | .unwrap factory name postProcess =>
    return .managed (← inChain container (Chain.unwrapProduct factory name postProcess))
  | .dependents name =>
    return .names (← ask container fun chain => chain.own.dependents.targets name)
  | .contained name =>
    return .names (← ask container fun chain => chain.own.contained.targets name)
  | .hasDependency dependency dependent =>
    return .flag (← ask container fun chain => chain.own.dependents.contains dependency dependent)
  | .creationCount name =>
    return .count (← ask container fun chain => chain.own.creationCount name)
  | .hasParent => return .flag (← ask container fun chain => !chain.ancestors.isEmpty)

/-- What each container made between two states of a session, in order; containers that made
nothing are left out. -/
def activities (before after : Session) : List Activity :=
  (before.members.zip after.members).filterMap fun (m, n) =>
    let created := n.container.created.drop m.container.created.length
    let unwrapped := n.container.unwrapped.drop m.container.unwrapped.length
    if created.isEmpty && unwrapped.isEmpty then none
    else some ⟨n.container.id, created, unwrapped⟩

/-- What comes of a step, and what the containers made on the way. -/
def step (s : Session) (container : String) (step : Step) :
    (Except Stop Answer × List Activity) × Session :=
  let (outcome, after) := (perform container step).run s
  ((outcome, activities s after), after)

/-- Takes an entry of a script: what comes of its step, from the shelf it left. -/
def take (s : Session) (entry : Entry) : (Except Stop Answer × List Activity) × Session :=
  ({ s with shelf := entry.shelf } : Session).step entry.container entry.step

/-- The session after the entries of a script, in order. -/
def run (s : Session) (entries : List Entry) : Session :=
  entries.foldl (fun s entry => (s.take entry).2) s

theorem run_append (s : Session) (xs ys : List Entry) :
    s.run (xs ++ ys) = (s.run xs).run ys :=
  List.foldl_append

end Session

end Wiring
