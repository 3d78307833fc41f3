import Wiring.Proofs.Container.Growth
import Wiring.Proofs.Resolver.Forgetting
import Wiring.Proofs.Session.Along

/-!
# Sessions — remembered types

A type that can be loaded can be loaded for good, and stays the same: each name is made known as the
type of that name, and no work on a container takes a type away (`Container.KeepsTypes`).  So what a
bound raw value comes to remember stays what would be loaded (`Session.Remembers`), however often it
is resolved and whatever is registered meanwhile (`Entry.Uses`).

**Resolved once more, it has the same outcome and leaves the same containers as a copy that has
forgotten all types** (`remembered_types_change_nothing`).
-/

namespace Wiring

namespace Container

/-- Each name is known as the type of that name. -/
def Typed (c : Container) : Prop :=
  ∀ name ty, c.types.get? name = some ty → ty = .named name

/-- The types that can be loaded can still be loaded, and are the same. -/
structure KeepsTypes (c c' : Container) : Prop where
  id : c'.id = c.id
  typed (h : c.Typed) : c'.Typed
  loads (h : c.Typed) {name : String} {ty : Ty} (hty : c.loadType name = .ok ty) :
    c'.loadType name = .ok ty

namespace KeepsTypes

variable {a b c : Container}

theorem refl (c : Container) : c.KeepsTypes c := ⟨rfl, fun h => h, fun _ _ _ h => h⟩

theorem trans (h : a.KeepsTypes b) (h' : b.KeepsTypes c) : a.KeepsTypes c :=
  ⟨h'.id.trans h.id, fun ha => h'.typed (h.typed ha), fun ha _ _ hty =>
    h'.loads (h.typed ha) (h.loads ha hty)⟩

instance : IsPreorder Container KeepsTypes where
  refl := KeepsTypes.refl
  trans _ _ _ := KeepsTypes.trans

/-- A change of no types. -/
theorem of_eq (id : b.id = a.id) (types : b.types = a.types) : a.KeepsTypes b := by
  refine ⟨id, fun h name ty => types ▸ h name ty, fun _ name ty hty => ?_⟩
  rwa [loadType, types]

end KeepsTypes

variable {c c' : Container}

theorem loadType_of_types (h : c'.types = c.types) : c'.loadType = c.loadType := by
  funext name
  rw [loadType, h, loadType]

theorem loadType_eq_ok {name : String} {ty : Ty} :
    c.loadType name = .ok ty ↔ (Ty.ofKeyword? name).or (c.types.get? name) = some ty := by
  rw [loadType]
  split
  next h => rw [h, Except.ok.injEq, Option.some.injEq]
  next h => rw [h]; constructor <;> intro h <;> cases h

theorem keepsTypes_registerType (c : Container) (name : String) :
    c.KeepsTypes (c.registerType name) := by
  refine ⟨rfl, fun h other ty hty => ?_, fun h {other ty} hty => ?_⟩
  · rw [registerType, Table.get?_insert] at hty
    split at hty
    next heq => rw [heq]; exact (Option.some.inj hty).symm
    next => exact h other ty hty
  · rw [loadType_eq_ok] at hty ⊢
    rw [registerType, Table.get?_insert]
    cases hkeyword : Ty.ofKeyword? other with
    | some builtIn => rw [hkeyword] at hty; exact hty
    | none =>
        rw [hkeyword, Option.none_or] at hty
        rw [Option.none_or]
        split
        next heq =>
          -- a name that is known already is known as the same type
          rw [h other ty hty, heq]
        next => exact hty

theorem keepsTypes_conclude {name : String} {b : Blueprint} {bean : Option Managed}
    (h : (c.note (.began name)).KeepsTypes c') : c.KeepsTypes (c'.conclude name b bean) := by
  have hnote : c.KeepsTypes (c.note (.began name)) := .of_eq rfl rfl
  have hbegan : c.KeepsTypes c' := hnote.trans h
  refine hbegan.trans ?_
  rw [conclude_eq]
  exact .of_eq rfl rfl

end Container

/-- The step registers something, or changes the bean that values are resolved for. -/
def Step.registers : Step → Bool
  | registerBlueprint _ _ | registerSingleton _ _ | registerNull _ | registerType _
  | registerAlias _ _ | reportStaleCandidate _ | definePlaceholder _ _
  | registerDependent _ _ | registerContained _ _ | changeOwner _ _ => true
  | _ => false

/-- The entry registers something, changes the bean that values are resolved for, or resolves the
raw value bound to the name in the container. -/
def Entry.Uses (id name : String) (e : Entry) : Prop :=
  e.step.registers ∨ e.container = id ∧ ∃ path, e.step = .resolve (.bound name) path

namespace Session

open Container

theorem stepAlong_types : StepAlong KeepsTypes where
  registerDependent _ _ _ := .of_eq rfl rfl
  registerContained _ _ _ := .of_eq rfl rfl
  claim _ _ _ _ := .of_eq rfl rfl
  begin _ _ := .of_eq rfl rfl
  newObject _ _ := .of_eq rfl rfl
  unwrap _ _ _ := .of_eq rfl rfl
  learn c name left := by
    rw [learn_eq]
    exact .of_eq rfl rfl
  found _ _ _ _ := .of_eq rfl rfl
  conclude h _ _ _ := keepsTypes_conclude h
  made _ noted := by rw [noted]; exact .of_eq rfl rfl
  id h := h.id
  registerBlueprint c name b := by
    rw [registerBlueprint]
    split
    next className _ => exact (keepsTypes_registerType c className).trans (.of_eq rfl rfl)
    next => exact .of_eq rfl rfl
  registerSingleton c name v := by
    unfold registerSingleton
    split
    next o => exact (keepsTypes_registerType c o.typeName).trans (.of_eq rfl rfl)
    next => exact .of_eq rfl rfl
  registerNull _ _ := .of_eq rfl rfl
  registerType := keepsTypes_registerType
  registerAlias _ _ _ := .of_eq rfl rfl
  reportStaleCandidate _ _ := .of_eq rfl rfl
  definePlaceholder _ _ _ := .of_eq rfl rfl
  refresh _ _ _ := .of_eq rfl rfl

/-! ### What is remembered is current -/

/-- A resolver of the chain loads the same types all along. -/
theorem loadsAs {evaluation : Evaluation} {r : Resolver Chain} {make : Chain.Maker}
    (hr : r.collaborators = Chain.collaborators make evaluation) (chain : Chain) :
    r.LoadsAs (Chain.Each Grows) chain chain.own.loadType := by
  intro s hs name
  rw [hr, ← loadType_of_types hs.own.types]
  exact Action.run_get_bind (fun c : Chain => Action.ofExcept (c.own.loadType name)) s

theorem resolver_collaborators (s : Session) :
    s.resolver.collaborators = Chain.collaborators (Chain.create depthLimit) s.evaluation := rfl

/-- Resolving a raw value of which everything that is remembered is current. -/
theorem resolve_sameRun {depth : Nat} {evaluation : Evaluation} {r : Resolver Chain}
    (hr : r.collaborators = Chain.collaborators (Chain.create depth) evaluation)
    (path : ArgPath) {raw : Raw} {chain : Chain}
    (current : raw.Current chain.own.loadType) :
    SameRun (Raw.Current chain.own.loadType) (r.resolve path raw) (r.resolve path raw.forget)
      chain :=
  Resolver.resolve_forget
    (Chain.goesAlong workAlong_grows (Chain.create_along workAlong_grows depth) hr)
    (loadsAs hr chain) path raw (refl_of _ chain) current

/-- The types of a container of the session, and what the raw value bound to a name remembers of
them. -/
structure Remembers (s : Session) (id name : String) : Prop where
  typed : (s.chain id).own.Typed
  current : (s.boundRaw name).Current (s.chain id).own.loadType

theorem boundRaw_bind (s : Session) (name : String) (raw : Raw) :
    (s.bind name raw).boundRaw name = raw := by
  rw [boundRaw, bind, Ordered.lookup_eq_find?, Ordered.find?_put, beq_self_eq_true]
  rfl

/-- What is remembered stays current when a session goes on, unless it is bound anew. -/
theorem Remembers.of_keeps {s s' : Session} {id name : String} (h : s.Remembers id name)
    (hkeeps : Keeps KeepsTypes s s')
    (current : (s'.boundRaw name).Current (s.chain id).own.loadType) : s'.Remembers id name := by
  have hown := own_keeps hkeeps id
  exact ⟨hown.typed h.typed, current.mono (hown.loads h.typed)⟩

theorem run_resolve_bound (id name : String) (path : ArgPath) (s : Session) :
    (resolve id path (.bound name)).run s =
      ((s.resolver.resolve path (s.boundRaw name) (s.chain id)).1.outcome,
        (s.store (s.resolver.resolve path (s.boundRaw name) (s.chain id)).2).bind name
          (s.resolver.resolve path (s.boundRaw name) (s.chain id)).1.node) := rfl

theorem run_resolve_given (id : String) (path : ArgPath) (raw : Raw) (s : Session) :
    (resolve id path (.given raw)).run s =
      ((s.resolver.resolve path raw (s.chain id)).1.outcome,
        s.store (s.resolver.resolve path raw (s.chain id)).2) := rfl

theorem perform_resolve_state (id : String) (source : Source) (path : ArgPath) (s : Session) :
    ((perform id (.resolve source path)).run s).2 = ((resolve id path source).run s).2 := by
  rw [perform, Action.run_bind]
  rcases (resolve id path source).run s with ⟨stop | v, s'⟩ <;> rfl

/-- Resolving the raw value bound to the name keeps what it remembers current. -/
theorem current_resolve {s : Session} {id name : String} (h : s.Remembers id name)
    (path : ArgPath) :
    (((resolve id path (.bound name)).run s).2.boundRaw name).Current
      (s.chain id).own.loadType := by
  rw [run_resolve_bound, boundRaw_bind]
  exact (resolve_sameRun s.resolver_collaborators path h.current).node

theorem boundRaw_of_registers {step : Step} (h : step.registers) (container : String)
    (s : Session) (name : String) :
    ((perform container step).run s).2.boundRaw name = s.boundRaw name := by
  cases step <;> cases h <;> rfl

/-- Each use of a bound raw value keeps what it remembers current. -/
theorem take_remembers {s : Session} {id name : String} {e : Entry} (uses : e.Uses id name)
    (h : s.Remembers id name) : (s.take e).2.Remembers id name := by
  obtain ⟨container, step, shelf⟩ := e
  -- the step is done with the shelf its entry left
  have hs : Remembers { s with shelf } id name :=
    h.of_keeps (refl_of (Keeps KeepsTypes) s) h.current
  refine hs.of_keeps (step_keeps stepAlong_types { s with shelf } container step) ?_
  rcases uses with registers | ⟨rfl, path, rfl⟩
  · rw [show (s.take { container, step, shelf }).2.boundRaw name = _ from
      boundRaw_of_registers registers container { s with shelf } name]
    exact hs.current
  · have hnode := current_resolve hs path
    rw [← perform_resolve_state] at hnode
    exact hnode

theorem run_remembers {id name : String} (entries : List Entry) {s : Session}
    (uses : ∀ e ∈ entries, e.Uses id name) (h : s.Remembers id name) :
    (s.run entries).Remembers id name := by
  induction entries generalizing s with
  | nil => exact h
  | cons e entries ih =>
      rw [List.forall_mem_cons] at uses
      exact ih uses.2 (take_remembers uses.1 h)

/-- What is bound and remembers no type is current. -/
theorem remembers_of_bind {s : Session} {id name : String} {e : Entry} {raw : Raw}
    (binds : e.step = .bind name raw) (forgotten : raw.forget = raw)
    (typed : (s.chain id).own.Typed) : (s.take e).2.Remembers id name := by
  have hown := own_keeps (take_keeps stepAlong_types s e) id
  obtain ⟨container, step, shelf⟩ := e
  obtain rfl : step = .bind name raw := binds
  refine ⟨hown.typed typed, ?_⟩
  rw [show (s.take { container, step := .bind name raw, shelf }).2.boundRaw name = raw from
    boundRaw_bind { s with shelf } name raw]
  exact Raw.current_of_forgotten forgotten

theorem run_typed (entries : List Entry) (s : Session) (id : String)
    (h : (s.chain id).own.Typed) : ((s.run entries).chain id).own.Typed :=
  (own_keeps (run_keeps stepAlong_types entries s) id).typed h

/-- In a new container no type is known. -/
theorem typed_start (containers : List (String × Option String)) (owner : String)
    (blueprint : Blueprint) (naming : Naming) (evaluation : Evaluation) (shelf : Shelf)
    (id : String) :
    ((start containers owner blueprint naming evaluation shelf).chain id).own.Typed := by
  cases hm : (start containers owner blueprint naming evaluation shelf).member? id with
  | none => rw [chain_absent hm]; exact fun _ _ => nofun
  | some m =>
      obtain ⟨_, -, rfl⟩ := List.mem_map.1 (List.mem_of_find?_eq_some hm)
      rw [own_chain hm]
      exact fun _ _ => nofun

/-- **What a raw value remembers of types changes nothing.**  A raw value that remembers no type is
bound, after any run, and used in a container, while anything is registered: then it is resolved,
for any bean, to the same outcome as a copy that has forgotten all types, and the containers are
left the same. -/
theorem remembered_types_change_nothing (containers : List (String × Option String))
    (owner : String) (blueprint : Blueprint) (naming : Naming) (evaluation : Evaluation)
    (shelf : Shelf) (before : List Entry) (binding : Entry) (entries : List Entry)
    (id name : String) (raw : Raw) (binds : binding.step = .bind name raw)
    (forgotten : raw.forget = raw) (uses : ∀ e ∈ entries, e.Uses id name) (path : ArgPath) :
    let s := (start containers owner blueprint naming evaluation shelf).run
      (before ++ binding :: entries)
    (∀ (r : Resolver Chain) depth how,
      r.collaborators = Chain.collaborators (Chain.create depth) how →
      (r.resolve path (s.boundRaw name) (s.chain id)).1.outcome =
          (r.resolve path (s.boundRaw name).forget (s.chain id)).1.outcome ∧
        (r.resolve path (s.boundRaw name) (s.chain id)).2 =
          (r.resolve path (s.boundRaw name).forget (s.chain id)).2) ∧
    ((resolve id path (.bound name)).run s).1 =
        ((resolve id path (.given (s.boundRaw name).forget)).run s).1 ∧
      ((resolve id path (.bound name)).run s).2.members =
        ((resolve id path (.given (s.boundRaw name).forget)).run s).2.members := by
  intro s
  have hs : s.Remembers id name := by
    have hrun := run_append (start containers owner blueprint naming evaluation shelf) before
      (binding :: entries)
    rw [show s = _ from hrun]
    exact run_remembers entries uses
      (remembers_of_bind binds forgotten (run_typed before _ id (typed_start _ _ _ _ _ _ id)))
  have own := resolve_sameRun s.resolver_collaborators path hs.current
  refine ⟨fun r depth how hr => ?_, ?_, ?_⟩
  · have same := resolve_sameRun hr path hs.current
    exact ⟨same.outcome, same.state⟩
  · rw [run_resolve_bound, run_resolve_given]
    exact own.outcome
  · rw [run_resolve_bound, run_resolve_given]
    exact congrArg (fun chain => (s.store chain).members) own.state

/-- A list whose second element could not be resolved at first: once it could be, both elements
remember their types, and a list that has forgotten them is resolved the same for another bean. -/
theorem remembered_types_change_nothing_of_list :
    let owner : Blueprint := {
      id := 1, className := some "O", scope := .singleton, dependsOn := [], synthetic := false
      resource := none, args := [], properties := [] }
    let raw : Raw := .list [
      .literal { text := some "7", typeName := some "int" },
      .array (some "T") none [.reference { target := .name "t" }]]
    let binding : Entry := { container := "main", step := .bind "tree" raw }
    let entries : List Entry := [
      { container := "main", step := .resolve (.bound "tree") (.root "p") },
      { container := "main", step := .registerSingleton "t" (.object (.external "T" "one")) },
      { container := "main", step := .resolve (.bound "tree") (.root "p") },
      { container := "main", step := .changeOwner "other" owner }]
    let s := (start [("main", none)] "owner" owner).run ([] ++ binding :: entries)
    raw.forget = raw ∧ (∀ e ∈ entries, e.Uses "main" "tree") ∧
      ((s.boundRaw "tree").at? [0]).bind Raw.remembered? = some .int ∧
      ((s.boundRaw "tree").at? [1]).bind Raw.remembered? = some (.named "T") ∧
      ((resolve "main" (.root "p") (.bound "tree")).run s).1.toOption.isSome ∧
      ((resolve "main" (.root "p") (.bound "tree")).run s).1 =
        ((resolve "main" (.root "p") (.given (s.boundRaw "tree").forget)).run s).1 ∧
      (s.resolver.resolve (.root "q") (s.boundRaw "tree") (s.chain "main")).2 =
        (s.resolver.resolve (.root "q") (s.boundRaw "tree").forget (s.chain "main")).2 := by
  intro owner raw binding entries s
  have forgotten : raw.forget = raw := rfl
  have uses : ∀ e ∈ entries, e.Uses "main" "tree" := by
    intro e he
    simp only [entries, List.mem_cons, List.not_mem_nil, or_false] at he
    rcases he with rfl | rfl | rfl | rfl
    · exact .inr ⟨rfl, _, rfl⟩
    · exact .inl rfl
    · exact .inr ⟨rfl, _, rfl⟩
    · exact .inl rfl
  have same := fun path => remembered_types_change_nothing [("main", none)] "owner" owner {}
    .placeholders {} [] binding entries "main" "tree" raw rfl forgotten uses path
  refine ⟨forgotten, uses, by decide +kernel, by decide +kernel, by decide +kernel,
    (same (.root "p")).2.1, ((same (.root "q")).1 s.resolver _ _ s.resolver_collaborators).2⟩

end Session

end Wiring
