import Wiring.Proofs.Container.Injections

/-!
# Containers — what a resolution makes

A resolution (`Attempt`) has objects made: those of the nested blueprints it comes to, with the
beans these depend on, and the beans its references lead to.  The making of an object (`Making`)
resolves its arguments and its properties.  Both are told with the state of the containers they
start from, so they are parts of one run.

**An object that cannot be made fails with the error of one of its values** (`comesTo_of_fails`,
`fails_of_comesTo`), unless its class is refused.  **The source of a resolution's error is the error
of an object that the resolution has made** (`leads_of_fails`), or has no place.
-/

namespace Wiring

/-- The making of an object, from a state of the containers. -/
structure Making where
  /-- How many objects are made inside one another, at most. -/
  depth : Nat
  name : String
  blueprint : Blueprint
  chain : Chain

/-- The resolution of a raw value, from a state of the containers. -/
structure Attempt where
  /-- How many objects are made inside one another, at most. -/
  depth : Nat
  evaluation : Evaluation := .placeholders
  /-- The bean the value is resolved for. -/
  bean : String
  blueprint : Blueprint
  naming : Naming := {}
  path : ArgPath
  raw : Raw
  chain : Chain

namespace Attempt

/-- What resolves the raw value. -/
def resolver (a : Attempt) : Resolver Chain :=
  ⟨Chain.collaborators (Chain.create a.depth) a.evaluation, a.bean, a.blueprint, a.naming⟩

/-- The bean, as errors tell it. -/
def origin (a : Attempt) : Origin :=
  a.resolver.origin

/-- The resolution stops with the error. -/
def Fails (a : Attempt) (e : Error) : Prop :=
  (a.resolver.resolve a.path a.raw a.chain).1.outcome = .error (.error e)

/-- The resolution comes to the node, at the path and in the state. -/
def Visits (a : Attempt) (p : ArgPath) (node : Raw) (s : Chain) : Prop :=
  ∃ place ty, a.resolver.visit? a.path .any a.raw a.chain place = some (.value p ty node s)

/-- The resolution comes to a nested blueprint, merges it and names its object, which it records as
part of the bean; that leads to the state. -/
inductive Takes (a : Attempt) (p : ArgPath) (inner : String) (merged : Blueprint) : Chain → Prop
  | mk {node : Raw} {proposed : String} {nested : Blueprint} {s s' : Chain}
    (visits : a.Visits p node s) (nests : a.resolver.inner? node = some (proposed, nested))
    (merges : Chain.mergeBlueprint proposed nested a.blueprint = .ok merged)
    (named : (a.resolver.innerName proposed merged).reach s = some (inner, s')) :
    Takes a p inner merged (s'.modifyOwn fun c => c.registerContained inner a.bean)

end Attempt

namespace Making

/-- The object, as errors tell it. -/
def origin (m : Making) : Origin :=
  ⟨m.name, m.blueprint.resource⟩

/-- The making stops with the error. -/
def Fails (m : Making) (e : Error) : Prop :=
  (Chain.create m.depth m.name m.blueprint m.chain).1.outcome = .error (.error e)

/-- The making comes to the value of an argument or of a property. -/
inductive ComesTo : Making → Attempt → Prop
  | argument {depth : Nat} {name : String} {b : Blueprint} {chain s : Chain} {raw : Raw}
    {before after : List Raw} {values : List Value}
    (sound : b.className.getD "" ≠ Chain.failingClass) (args : b.args = before ++ raw :: after)
    (earlier : reach (Chain.resolveArgs (Chain.objectResolver depth name b) 0 before)
      (chain.beginning name b) = some (values, s)) :
    ComesTo ⟨depth + 1, name, b, chain⟩
      { depth, bean := name, blueprint := b, path := .root (Chain.argName before.length), raw
        chain := s }
  | property {depth : Nat} {name property : String} {b : Blueprint} {chain mid s : Chain}
    {raw : Raw} {before after : List (String × Raw)} {args : List Value}
    {values : List (String × Value)} (sound : b.className.getD "" ≠ Chain.failingClass)
    (arguments : reach (Chain.resolveArgs (Chain.objectResolver depth name b) 0 b.args)
      (chain.beginning name b) = some (args, mid))
    (properties : b.properties = before ++ (property, raw) :: after)
    (earlier : reach (Chain.resolveProperties (Chain.objectResolver depth name b) before) mid =
      some (values, s)) :
    ComesTo ⟨depth + 1, name, b, chain⟩
      { depth, bean := name, blueprint := b, path := .root property, raw, chain := s }

end Making

namespace Chain

/-- The look-up of the name has the bean made of its definition, here or in a container above. -/
inductive Starts (depth : Nat) : Chain → String → Making → Prop
  | here {chain : Chain} {name : String} {b : Blueprint}
    (absent : chain.own.singletons.get? (chain.own.canonical name) = none)
    (defined : chain.own.definitions.get? (chain.own.canonical name) = some b) :
    Starts depth chain name ⟨depth, chain.own.canonical name, b,
      chain.modifyOwn fun c => c.note (.began (chain.own.canonical name))⟩
  | above {chain : Chain} {name : String} {up : Container} {rest : List Container} {m : Making}
    (absent : chain.own.singletons.get? (chain.own.canonical name) = none)
    (undefined : chain.own.definitions.get? (chain.own.canonical name) = none)
    (ancestors : chain.ancestors = up :: rest)
    (starts : Starts depth ⟨up, rest⟩ (chain.own.canonical name) m) : Starts depth chain name m

/-- The look-up of the type has the only bean of the type made, of the first container that knows
one. -/
inductive StartsOfType (depth : Nat) : Chain → Ty → Making → Prop
  | here {chain : Chain} {ty : Ty} {name : String} {m : Making}
    (only : chain.own.candidates ty = [name]) (starts : Starts depth chain name m) :
    StartsOfType depth chain ty m
  | above {chain : Chain} {ty : Ty} {up : Container} {rest : List Container} {m : Making}
    (none : chain.own.candidates ty = []) (ancestors : chain.ancestors = up :: rest)
    (starts : StartsOfType depth ⟨up, rest⟩ ty m) : StartsOfType depth chain ty m

end Chain

namespace Attempt

open Chain (Starts StartsOfType)

/-- To follow the reference from the state has the bean made. -/
inductive Follows (a : Attempt) (ref : Reference) (s : Chain) (m : Making) : Prop
  | name {text name : String} {s' : Chain} (here : ref.inParent = false)
    (target : ref.target = .name text)
    (evaluated : (a.resolver.evaluateName text).reach s = some (name, s'))
    (starts : Starts a.depth s' name m)
  | type {ty : Ty} {name : String} (here : ref.inParent = false) (target : ref.target = .type ty)
    (only : s.own.candidates ty = [name]) (starts : Starts a.depth s name m)
  | nameAbove {text name : String} {s' : Chain} {up : Container} {rest : List Container}
    (inParent : ref.inParent = true) (target : ref.target = .name text)
    (evaluated : (a.resolver.evaluateName text).reach s = some (name, s'))
    (ancestors : s'.ancestors = up :: rest) (starts : Starts a.depth ⟨up, rest⟩ name m)
  | typeAbove {ty : Ty} {up : Container} {rest : List Container} (inParent : ref.inParent = true)
    (target : ref.target = .type ty) (ancestors : s.ancestors = up :: rest)
    (starts : StartsOfType a.depth ⟨up, rest⟩ ty m)

/-- The attempt has the object made, for want of which it would stop with the error: the object of a
nested blueprint, a bean this depends on, or the bean a reference leads to. -/
inductive Leads (a : Attempt) : Error → Making → Prop
  | inner {p : ArgPath} {inner : String} {merged : Blueprint} {s ready : Chain} {source : Error}
    (takes : a.Takes p inner merged s)
    (prepared : (a.resolver.prepare inner merged.dependsOn).reach s = some ((), ready)) :
    Leads a (.innerBean (a.resolver.site p) inner merged.className source)
      ⟨a.depth, inner, merged, ready⟩
  | dependsOn {p : ArgPath} {inner name : String} {merged : Blueprint} {before after : List String}
    {s ready : Chain} {m : Making} {source : Error} (takes : a.Takes p inner merged s)
    (dependsOn : merged.dependsOn = before ++ name :: after)
    (prepared : (a.resolver.prepare inner before).reach s = some ((), ready))
    (starts : Starts a.depth (ready.modifyOwn fun c => c.registerDependent name inner) name m) :
    Leads a (.innerBean (a.resolver.site p) inner merged.className source) m
  | reference {p : ArgPath} {ref : Reference} {s : Chain} {m : Making} {source : Error}
    (visits : a.Visits p (.reference ref) s) (follows : a.Follows ref s m) :
    Leads a (.reference (a.resolver.site p) ref.declaredName source) m

end Attempt

/-! ### Errors without a place -/

/-- An error without a place has no source. -/
theorem Error.source?_of_site? {e : Error} (h : e.site? = none) : e.source? = none := by
  cases e <;> first | rfl | cases h

theorem Action.site?_of_raises {σ α : Type} {x : Action σ α}
    (h : x.Raises fun e _ => e.site? = none) {s : σ} {e : Error} (failed : x.error? s = some e) :
    e.site? = none := by
  obtain ⟨s', hrun⟩ := exists_of_error? failed
  have hs := h s
  rwa [hrun] at hs

namespace Value

variable {target : Ty} {v : Value} {s : String} {e : Error}

theorem site?_of_readInt (h : readInt s = .error e) : e.site? = none := by
  unfold readInt at h
  split at h <;> cases h
  rfl

theorem site?_of_readDecimal (h : readDecimal s = .error e) : e.site? = none := by
  unfold readDecimal at h
  split at h <;> cases h
  rfl

theorem site?_of_readBool (h : readBool s = .error e) : e.site? = none := by
  unfold readBool at h
  dsimp only at h
  split at h
  · cases h
  · split at h <;> cases h
    rfl

theorem site?_of_readChar (h : readChar s = .error e) : e.site? = none := by
  unfold readChar at h
  split at h <;> cases h
  rfl

/-- A value that does not convert is the fault of no bean. -/
theorem site?_of_coerce (h : v.coerce target = .error e) : e.site? = none := by
  unfold coerce at h
  dsimp only at h
  split at h
  · cases h
  split at h
  · split at h <;> cases h
    rfl
  split at h
  · cases h
  · exact site?_of_readInt h
  · cases h
  · cases h
  · exact site?_of_readDecimal h
  · cases h
  · exact site?_of_readBool h
  · cases h
  · exact site?_of_readChar h
  · split at h <;> cases h
    rfl
  · split at h <;> cases h
    rfl
  · cases h
    rfl

end Value

namespace Chain

open Wiring.Action (valueOf)

variable {depth : Nat} {chain : Chain} {name : String} {ty : Ty} {e : Error}

theorem unwrapProduct_raises (factory : Value) (name : String) (postProcess : Bool) :
    (unwrapProduct factory name postProcess).Raises fun e _ => e.site? = none := by
  refine Action.raises_bind (Action.raises_lift _) fun _ => ?_
  split
  · exact Action.raises_fail fun _ => rfl
  · exact Action.raises_pure _
  · exact Action.raises_pure _

/-! ### Look-ups -/

/-- The bean of a definition cannot be had when its object cannot be made, or is a factory without a
product. -/
theorem fails_of_realize {b : Blueprint}
    (failed : (realize (create depth) name b).error? chain = some e) :
    e.site? = none ∨
      Making.Fails ⟨depth, name, b, chain.modifyOwn fun c => c.note (.began name)⟩ e := by
  rw [Action.error?, run_realize] at failed
  rcases Action.error?_bind.1 failed with failed | ⟨made, mid, -, failed⟩
  · exact .inr (Stop.eq_of_error? failed)
  · cases made with
    | factory factory => exact .inl (Action.site?_of_raises (unwrapProduct_raises _ _ _) failed)
    | value v => cases failed
    | null => cases failed

theorem starts_of_findByName : ∀ (height : Nat) {chain : Chain} {name : String},
    chain.ancestors.length = height →
      (findByName (create depth) height name).error? chain = some e →
      e.site? = none ∨ ∃ m, Starts depth chain name m ∧ m.Fails e
  | height, chain, name, hheight, failed => by
      rw [Action.error?] at failed
      cases made : chain.own.singletons.get? (chain.own.canonical name) with
      | some bean => rw [findByName_made _ made] at failed; cases failed
      | none =>
          cases defined : chain.own.definitions.get? (chain.own.canonical name) with
          | some b =>
              rw [findByName_defined _ made defined] at failed
              exact (fails_of_realize failed).imp_right fun fails => ⟨_, .here made defined, fails⟩
          | none =>
              cases height with
              | zero => rw [findByName_absent made defined] at failed; cases failed; exact .inl rfl
              | succ height =>
                  obtain ⟨up, rest, above⟩ := List.exists_cons_of_length_eq_add_one hheight
                  rw [findByName_above height made defined, run_inParent_cons _ _ above] at failed
                  rw [above] at hheight
                  refine (starts_of_findByName height (Nat.succ.inj hheight) failed).imp_right ?_
                  rintro ⟨m, starts, fails⟩
                  exact ⟨m, .above made defined above starts, fails⟩

/-- **A look-up by name stops with the error of the bean whose making it started**, or with an error
without a place. -/
theorem starts_of_getByName (failed : (getByName (create depth) name).error? chain = some e) :
    e.site? = none ∨ ∃ m, Starts depth chain name m ∧ m.Fails e :=
  starts_of_findByName _ rfl failed

theorem starts_of_resolveNamedByType
    (failed : (resolveNamedByType (create depth) ty).error? chain = some e) :
    e.site? = none ∨ ∃ name m, chain.own.candidates ty = [name] ∧ Starts depth chain name m ∧
      m.Fails e := by
  rw [Action.error?, resolveNamedByType, Action.run_get_bind] at failed
  rcases hnames : chain.own.candidates ty with _ | ⟨name, _ | ⟨other, names⟩⟩ <;>
    rw [hnames] at failed
  · cases failed; exact .inl rfl
  · refine (starts_of_getByName (Action.error?_map.1 failed)).imp_right ?_
    rintro ⟨m, starts, fails⟩
    exact ⟨name, m, rfl, starts, fails⟩
  · cases failed; exact .inl rfl

theorem resolveNamedByType_none (none : chain.own.candidates ty = []) :
    (resolveNamedByType (create depth) ty).run chain =
      (.error (.error (.noSuchBeanOfType ty)), chain) := by
  rw [resolveNamedByType, Action.run_get_bind, none]
  rfl

/-- Without injection points, a look-up by type asks the container above only where no bean here has
the type. -/
theorem starts_of_getByType : ∀ {ancestors : List Container} {chain : Chain},
    chain.ancestors = ancestors → chain.Uninjected →
      (getByType (create depth) ty).error? chain = some e →
      e.site? = none ∨ ∃ m, StartsOfType depth chain ty m ∧ m.Fails e
  | ancestors, chain, above, uninjected, failed => by
      by_cases none : chain.own.candidates ty = []
      · rw [Action.error?, run_getByType_missing (resolveNamedByType_none none)] at failed
        cases ancestors with
        | nil => rw [run_inParent_nil _ _ above] at failed; cases failed; exact .inl rfl
        | cons up rest =>
            rw [run_inParent_cons _ _ above] at failed
            refine (starts_of_getByType rfl (uninjected.above above) failed).imp_right ?_
            rintro ⟨m, starts, fails⟩
            exact ⟨m, .above none above starts, fails⟩
      · -- only for an injection point is another type looked up on the way
        have settled : ∀ missing, ((resolveNamedByType (create depth) ty).run chain).1 ≠
            .error (.error (.noSuchBeanOfType missing)) := by
          intro missing hmissing
          obtain ⟨name, b, -, pending, points⟩ :=
            (pending_of_resolveNamedByType hmissing).resolve_left none
          exact points (b.injectionPoints_of_dependencies (uninjected.pending pending))
        have failed : (resolveNamedByType (create depth) ty).error? chain = some e := by
          rw [Action.error?, getByType, Action.run_get_bind, findByType_here _ settled] at failed
          exact (Stop.error?_map NamedBean.bean _).symm.trans failed
        refine (starts_of_resolveNamedByType failed).imp_right ?_
        rintro ⟨name, m, only, starts, fails⟩
        exact ⟨m, .here only starts, fails⟩

/-! ### Objects -/

theorem error?_resolveArgs {r : Resolver Chain} {raws : List Raw} {s : Chain} :
    (valueOf (resolveArgs r 0 raws)).error? s = some e ↔
      ∃ before raw after values mid, raws = before ++ raw :: after ∧
        reach (resolveArgs r 0 before) s = some (values, mid) ∧
        (valueOf (r.resolve (.root (argName before.length)) raw)).error? mid = some e := by
  have each := Action.error?_each (g := fun i raws => valueOf (resolveArgs r i raws))
    (f := fun i raw => valueOf (r.resolve (.root (argName i)) raw)) (e := e) (fun _ => rfl)
    (valueOf_resolveArgs_cons r) raws 0 s
  simpa only [Nat.zero_add, Action.reach_valueOf] using each

theorem error?_resolveProperties {r : Resolver Chain} {ps : List (String × Raw)} {s : Chain} :
    (valueOf (resolveProperties r ps)).error? s = some e ↔
      ∃ before name raw after values mid, ps = before ++ (name, raw) :: after ∧
        reach (resolveProperties r before) s = some (values, mid) ∧
        (valueOf (r.resolve (.root name) raw)).error? mid = some e := by
  have each := Action.error?_each (g := fun _ ps => valueOf (resolveProperties r ps))
    (f := fun _ p => do return (p.1, ← valueOf (r.resolve (.root p.1) p.2))) (e := e)
    (fun _ => rfl) (fun _ ⟨name, raw⟩ ps => by
      simp only [valueOf_resolveProperties_cons, bind_assoc, pure_bind]) ps 0 s
  simpa only [Prod.exists, Action.error?_map, Action.reach_valueOf] using each

/-- An object whose class is not refused fails with the first value that does. -/
theorem error?_create {b : Blueprint} (sound : b.className.getD "" ≠ failingClass) :
    Stop.error? (create (depth + 1) name b chain).1.outcome = some e ↔
      (valueOf (resolveArgs (objectResolver depth name b) 0 b.args)).error?
          (chain.beginning name b) = some e ∨
        ∃ args mid, reach (resolveArgs (objectResolver depth name b) 0 b.args)
            (chain.beginning name b) = some (args, mid) ∧
          (valueOf (resolveProperties (objectResolver depth name b) b.properties)).error? mid =
            some e := by
  -- the blueprint that is left is put back, which adds no error
  have same : Stop.error? (create (depth + 1) name b chain).1.outcome =
      (valueOf (instantiate (collaborators (create depth)) name b)).error?
        (chain.beginning name b) := by
    rw [run_create_sound sound, Action.error?, Action.run_valueOf]
    rcases instantiate (collaborators (create depth)) name b (chain.beginning name b) with
      ⟨⟨node, (_ | _) | v⟩, mid⟩ <;> rfl
  rw [same, valueOf_instantiate, Action.error?_bind]
  refine or_congr_right (exists₂_congr fun args mid => and_congr_right fun _ => ?_)
  rw [Action.error?_bind]
  refine or_iff_left ?_
  rintro ⟨_, _, _, made⟩
  cases made

end Chain

namespace Making

variable {m : Making} {a : Attempt} {e : Error}

/-- **An object that cannot be made fails with the error of one of its values**, or with an error
without a place. -/
theorem comesTo_of_fails (failed : m.Fails e) :
    e.site? = none ∨ ∃ a, m.ComesTo a ∧ a.Fails e := by
  obtain ⟨depth, name, b, chain⟩ := m
  cases depth with
  | zero => cases failed
  | succ depth =>
      by_cases sound : b.className.getD "" = Chain.failingClass
      · rw [Fails, Chain.run_create_failing sound] at failed
        cases failed
        exact .inl rfl
      · right
        rcases (Chain.error?_create sound).1 (congrArg Stop.error? failed) with
          failed | ⟨args, mid, arguments, failed⟩
        · obtain ⟨before, raw, after, values, s, hargs, earlier, failed⟩ :=
            Chain.error?_resolveArgs.1 failed
          exact ⟨_, .argument sound hargs earlier, Stop.eq_of_error? failed⟩
        · obtain ⟨before, property, raw, after, values, s, hproperties, earlier, failed⟩ :=
            Chain.error?_resolveProperties.1 failed
          exact ⟨_, .property sound arguments hproperties earlier, Stop.eq_of_error? failed⟩

/-- A value that fails has the whole object fail. -/
theorem fails_of_comesTo (comes : m.ComesTo a) (failed : a.Fails e) : m.Fails e := by
  have failed := congrArg Stop.error? failed
  refine Stop.eq_of_error? ?_
  cases comes with
  | argument sound args earlier =>
      exact (Chain.error?_create sound).2 (.inl (Chain.error?_resolveArgs.2
        ⟨_, _, _, _, _, args, earlier, failed⟩))
  | property sound arguments properties earlier =>
      exact (Chain.error?_create sound).2 (.inr ⟨_, _, arguments, Chain.error?_resolveProperties.2
        ⟨_, _, _, _, _, _, properties, earlier, failed⟩⟩)

end Making

/-! ### Resolutions -/

namespace Attempt

open Chain (Starts StartsOfType)

variable {a : Attempt} {e : Error} {s : Chain}

theorem evaluateText_raises (a : Attempt) (text : String) :
    (a.resolver.evaluateText text).Raises fun e _ => e.site? = none :=
  Chain.evaluateText_raises rfl (fun _ _ h => h.site?) text

theorem site?_of_evaluateName {text : String}
    (failed : (a.resolver.evaluateName text).error? s = some e) : e.site? = none :=
  Action.site?_of_raises (evaluateText_raises a text) (Action.error?_map.1 failed)

/-- The beans an inner bean depends on are made up to one that cannot be. -/
theorem starts_of_prepare {inner : String} : ∀ {names : List String} {s : Chain},
    (a.resolver.prepare inner names).error? s = some e →
      e.site? = none ∨ ∃ before name after ready m, names = before ++ name :: after ∧
        (a.resolver.prepare inner before).reach s = some ((), ready) ∧
        Starts a.depth (ready.modifyOwn fun c => c.registerDependent name inner) name m ∧ m.Fails e
  | [], s, failed => by cases failed
  | name :: names, s, failed => by
      rw [Resolver.prepare, Action.error?_bind_lift] at failed
      rcases Action.error?_bind.1 failed with failed | ⟨bean, mid, hbean, failed⟩
      · refine (Chain.starts_of_getByName failed).imp_right ?_
        rintro ⟨m, starts, fails⟩
        exact ⟨[], name, names, s, m, rfl, rfl, starts, fails⟩
      · refine (starts_of_prepare failed).imp_right ?_
        rintro ⟨before, name', after, ready, m, rfl, prepared, starts, fails⟩
        refine ⟨name :: before, name', after, ready, m, rfl, ?_, starts, fails⟩
        rw [Resolver.prepare]
        exact Action.reach_bind_eq_some.2 ⟨(), _, rfl, Action.reach_bind_eq_some.2
          ⟨bean, mid, hbean, prepared⟩⟩

/-- The object of a nested blueprint fails with the error of a bean it depends on, or with its
own. -/
theorem leads_of_makeInner {p : ArgPath} {inner : String} {merged : Blueprint}
    (takes : a.Takes p inner merged s)
    (failed : (a.resolver.makeInner inner merged).error? s = some e) :
    e.site? = none ∨ ∃ m,
      a.Leads (.innerBean (a.resolver.site p) inner merged.className e) m ∧ m.Fails e := by
  rcases Action.error?_bind.1 failed with failed | ⟨_, ready, prepared, failed⟩
  · refine (starts_of_prepare failed).imp_right ?_
    rintro ⟨before, name, after, ready, m, dependsOn, prepared, starts, fails⟩
    exact ⟨m, .dependsOn takes dependsOn prepared starts, fails⟩
  rcases Action.error?_bind.1 failed with failed | ⟨made, mid, -, failed⟩
  · exact .inr ⟨_, .inner takes prepared, Stop.eq_of_error? failed⟩
  · cases made with
    | factory factory =>
        exact .inl (Action.site?_of_raises (Chain.unwrapProduct_raises _ _ _)
          (Action.error?_map.1 failed))
    | value v => cases failed
    | null => cases failed

theorem follows_of_findHere {ref : Reference} (here : ref.inParent = false)
    (failed : (a.resolver.findHere ref).error? s = some e) :
    e.site? = none ∨ ∃ m, a.Follows ref s m ∧ m.Fails e := by
  unfold Resolver.findHere at failed
  split at failed
  next ty target =>
    refine (Chain.starts_of_resolveNamedByType failed).imp_right ?_
    rintro ⟨name, m, only, starts, fails⟩
    exact ⟨m, .type here target only starts, fails⟩
  next text target =>
    rcases Action.error?_bind.1 failed with failed | ⟨name, s', evaluated, failed⟩
    · exact .inl (site?_of_evaluateName failed)
    · refine (Chain.starts_of_getByName (Action.error?_map.1 failed)).imp_right ?_
      rintro ⟨m, starts, fails⟩
      exact ⟨m, .name here target evaluated starts, fails⟩

/-- What an action on the containers above stops with. -/
theorem error?_inParent {α : Type} {missing : Error} {x : Action Chain α}
    (failed : (Chain.inParent (Action.fail missing) x).error? s = some e) :
    e = missing ∨ ∃ up rest, s.ancestors = up :: rest ∧ x.error? ⟨up, rest⟩ = some e := by
  rw [Action.error?] at failed
  cases above : s.ancestors with
  | nil =>
      rw [Chain.run_inParent_nil _ _ above] at failed
      cases failed
      exact .inl rfl
  | cons up rest =>
      rw [Chain.run_inParent_cons _ _ above] at failed
      exact .inr ⟨up, rest, rfl, failed⟩

theorem follows_of_lookUpInParent {ref : Reference} (inParent : ref.inParent = true)
    (uninjected : s.Uninjected)
    (failed :
      (a.resolver.lookUpInParent (Chain.parentLookups (Chain.create a.depth)) ref).error? s =
        some e) : e.site? = none ∨ ∃ m, a.Follows ref s m ∧ m.Fails e := by
  unfold Resolver.lookUpInParent at failed
  split at failed
  next ty target =>
    obtain rfl | ⟨up, rest, above, failed⟩ := error?_inParent failed
    · exact .inl rfl
    · refine (Chain.starts_of_getByType rfl (uninjected.above above) failed).imp_right ?_
      rintro ⟨m, starts, fails⟩
      exact ⟨m, .typeAbove inParent target above starts, fails⟩
  next text target =>
    rcases Action.error?_bind.1 failed with failed | ⟨name, s', evaluated, failed⟩
    · exact .inl (site?_of_evaluateName failed)
    obtain rfl | ⟨up, rest, above, failed⟩ := error?_inParent failed
    · exact .inl rfl
    · refine (Chain.starts_of_getByName failed).imp_right ?_
      rintro ⟨m, starts, fails⟩
      exact ⟨m, .nameAbove inParent target evaluated above starts, fails⟩

/-- Neither the raw value nor a definition of the containers has an injection point, at any
depth. -/
structure Uninjected (a : Attempt) : Prop where
  raw : a.raw.dependencies = []
  chain : a.chain.Uninjected

theorem goesAlong (a : Attempt) : a.resolver.GoesAlong (Chain.Each Container.Grows) :=
  Chain.goesAlong Container.workAlong_grows
    (Chain.create_along Container.workAlong_grows a.depth) rfl

/-- What is visited has no injection point either. -/
theorem Uninjected.visits {place : List Nat} {v : Visit Chain} (h : a.Uninjected)
    (visited : a.resolver.visit? a.path .any a.raw a.chain place = some v) :
    v.node.dependencies = [] ∧ v.state.Uninjected := by
  obtain ⟨grows, part⟩ := Resolver.visit_stays a.goesAlong a.path .any a.raw a.chain visited
  exact ⟨part.dependencies h.raw, h.chain.of_grows grows⟩

theorem loadType_raises (a : Attempt) (name : String) :
    (a.resolver.collaborators.loadType name).Raises fun e _ => e.site? = none := by
  refine Action.raises_bind_lift fun chain => Action.raises_ofExcept fun e missing s => ?_
  change chain.own.loadType name = .error e at missing
  unfold Container.loadType at missing
  split at missing <;> cases missing
  rfl

theorem site?_of_targetType {l : Literal}
    (failed : (a.resolver.targetType l).error? s = some e) : e.site? = none := by
  unfold Resolver.targetType at failed
  split at failed
  · cases failed
  · exact Action.site?_of_raises (loadType_raises a _) (Action.error?_map.1 failed)
  · cases failed

theorem site?_of_coerce {v : Value} {ty : Ty}
    (failed : (a.resolver.collaborators.coerce v ty).error? s = some e) : e.site? = none :=
  Value.site?_of_coerce (Action.error?_ofExcept.1 failed)

theorem site?_of_merge {name : String} {nested owner : Blueprint}
    (failed : Chain.mergeBlueprint name nested owner = .error e) : e.site? = none := by
  unfold Chain.mergeBlueprint at failed
  split at failed
  · cases failed
    rfl
  · split at failed <;> cases failed

/-- A node that fails stops with an error of its own, and its source is the error of an object that
was made for the node, or has no place. -/
theorem leads_of_fault {place : List Nat} {v : Visit Chain} {p : ArgPath}
    (visited : a.resolver.visit? a.path .any a.raw a.chain place = some v)
    (points : v.node.dependencies = []) (uninjected : v.state.Uninjected)
    (fault : a.resolver.Fault p v e) :
    (e.site? = none ∨ e.origin? = some a.origin) ∧
      ∀ source, e.source? = some source →
        source.site? = none ∨ ∃ m, a.Leads e m ∧ m.Fails source := by
  cases fault with
  | evaluation failed =>
      have plain := Action.site?_of_raises (Action.raises_mapM (evaluateText_raises a) _) failed
      exact ⟨.inl plain, fun source h => by rw [Error.source?_of_site? plain] at h; cases h⟩
  | dependency failed => cases points
  | nullProperty visited evaluated null => exact ⟨.inr rfl, nofun⟩
  | noParent up missing => exact ⟨.inr rfl, nofun⟩
  | nameReference evaluated unknown => exact ⟨.inr rfl, nofun⟩
  | literalType evaluated failed =>
      exact ⟨.inr rfl, fun source h => by cases h; exact .inl (site?_of_targetType failed)⟩
  | literal evaluated typed failed =>
      exact ⟨.inr rfl, fun source h => by cases h; exact .inl (site?_of_coerce failed)⟩
  | elementType declared failed =>
      refine ⟨.inr rfl, fun source h => ?_⟩
      cases h
      exact .inl (Action.site?_of_raises (loadType_raises a _) failed)
  | element typed reached failed =>
      exact ⟨.inr rfl, fun source h => by cases h; exact .inl (site?_of_coerce failed)⟩
  | merge inner failed =>
      refine ⟨.inr rfl, fun source h => ?_⟩
      cases h
      exact .inl (site?_of_merge (Action.error?_ofExcept.1 failed))
  | reference here failed =>
      refine ⟨.inr rfl, fun source h => ?_⟩
      cases h
      refine (follows_of_findHere here failed).imp_right ?_
      rintro ⟨m, follows, fails⟩
      exact ⟨m, .reference ⟨place, _, visited⟩ follows, fails⟩
  | referenceAbove up above failed =>
      refine ⟨.inr rfl, fun source h => ?_⟩
      cases h
      -- the parent is looked up without a change of the state
      cases congrArg Prod.snd above
      rw [Chain.eq_parentLookups (congrArg Prod.fst above)] at failed
      refine (follows_of_lookUpInParent up uninjected failed).imp_right ?_
      rintro ⟨m, follows, fails⟩
      exact ⟨m, .reference ⟨place, _, visited⟩ follows, fails⟩
  | inner nested merges named failed =>
      refine ⟨.inr rfl, fun source h => ?_⟩
      cases h
      obtain ⟨merged, rfl⟩ := Action.ok_of_ofExcept (Action.run_of_reach merges)
      rw [Resolver.createInner, Action.error?_bind_lift] at failed
      exact leads_of_makeInner (.mk ⟨place, _, visited⟩ nested merged named) failed

/-- **The source of a resolution's error is the error of an object that the resolution has made**,
or has no place.  The error itself tells the resolution's bean, or has no place. -/
theorem leads_of_fails (uninjected : a.Uninjected) (failed : a.Fails e) :
    (e.site? = none ∨ e.origin? = some a.origin) ∧
      ∀ source, e.source? = some source →
        source.site? = none ∨ ∃ m, a.Leads e m ∧ m.Fails source := by
  have failed : (a.resolver.converted a.path .any a.raw).error? a.chain = some e := by
    rw [Resolver.converted_any]
    exact congrArg Stop.error? failed
  obtain ⟨place, -, v, p, visited, fault⟩ := Resolver.exists_fault a.path .any a.raw a.chain failed
  obtain ⟨points, uninjected⟩ := uninjected.visits visited
  exact leads_of_fault visited points uninjected fault

end Attempt

end Wiring
