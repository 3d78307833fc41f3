import Wiring.Proofs.Container.ErrorChains

/-!
# Containers — the scope of nested blueprints

A nested blueprint is merged with the blueprint it stands in; the merged copy is what the object is
made of, and in turn what the blueprints that stand in it are merged with.  `Nested` is the making
of one such object as part of a resolution, and `Nested.Inside` that of an object inside another.

**However deep the blueprints are nested, the object of the innermost is made of it with the scope
of the last of them that is no singleton** (`scope_inherited`), the owner included; the rest of it
stays.  Its proposed name is kept unless all of them are singletons, and only then is a name
searched for.  The making is part of the run of the resolution at the outside, whose container keeps
record of it.
-/

namespace Wiring

/-- The scope of the last blueprint that is no singleton; a singleton's, if all are. -/
def inheritedScope (bs : List Blueprint) : Scope :=
  ((bs.filter fun b => !b.isSingleton).getLast?.map BlueprintOf.scope).getD .singleton

theorem inheritedScope_append (bs : List Blueprint) (b : Blueprint) :
    inheritedScope (bs ++ [b]) = if b.isSingleton then inheritedScope bs else b.scope := by
  cases single : b.isSingleton <;> simp [inheritedScope, single]

theorem inheritedScope_owner (b : Blueprint) : inheritedScope [b] = b.scope := by
  rw [← List.nil_append [b], inheritedScope_append]
  split
  next single => exact (BlueprintOf.isSingleton_iff.1 single).symm
  next => rfl

/-- A singleton's scope is inherited only from singletons. -/
theorem inheritedScope_eq_singleton {bs : List Blueprint} :
    inheritedScope bs = .singleton ↔ ∀ b ∈ bs, b.isSingleton := by
  rw [inheritedScope]
  cases last : (bs.filter fun b => !b.isSingleton).getLast? with
  | none =>
      rw [List.getLast?_eq_none_iff, List.filter_eq_nil_iff] at last
      simpa using last
  | some b =>
      obtain ⟨hb, own⟩ := List.mem_filter.1 (List.mem_of_getLast? last)
      refine ⟨fun single => ?_, fun all => ?_⟩
      · rw [BlueprintOf.isSingleton_iff.2 single] at own
        cases own
      · rw [all b hb] at own
        cases own

/-- The making of the object of a nested blueprint, as part of a resolution. -/
structure Nested where
  /-- The resolution that comes to the nested blueprint. -/
  owner : Attempt
  path : ArgPath
  node : Raw
  /-- The name that is proposed for the object. -/
  proposed : String
  blueprint : Blueprint
  /-- What the object is made of. -/
  merged : Blueprint
  name : String
  /-- The state in which the nested blueprint is come to. -/
  met : Chain
  /-- The state in which the object has its name. -/
  named : Chain
  /-- The state in which the making of the object is begun. -/
  ready : Chain
  visits : owner.Visits path node met
  nests : owner.resolver.inner? node = some (proposed, blueprint)
  merges : Chain.mergeBlueprint proposed blueprint owner.blueprint = .ok merged
  names : (owner.resolver.innerName proposed merged).reach met = some (name, named)
  prepares : (owner.resolver.prepare name merged.dependsOn).reach
    (named.modifyOwn fun c => c.registerContained name owner.bean) = some ((), ready)

namespace Nested

/-- The making of the object itself. -/
def making (n : Nested) : Making :=
  ⟨n.owner.depth, n.name, n.merged, n.ready⟩

/-- The second object is made for a blueprint that stands in the first one's, while the first one's
arguments and properties are resolved. -/
def Inside (n m : Nested) : Prop :=
  n.making.ComesTo m.owner

end Nested

theorem Making.ComesTo.blueprint {m : Making} {a : Attempt} (h : m.ComesTo a) :
    a.blueprint = m.blueprint := by
  cases h <;> rfl

/-! ### Scopes -/

namespace Nested

theorem merged_eq (n : Nested) {owners : List Blueprint}
    (inherits : n.owner.blueprint.scope = inheritedScope owners) :
    n.merged = { n.blueprint with scope := inheritedScope (owners ++ [n.blueprint]) } := by
  rw [inheritedScope_append, ← inherits]
  exact Chain.merge_eq n.merges

/-- The objects inside one another are made of blueprints with the inherited scope. -/
theorem merged_of_chain : ∀ (ns : List Nested) (n : Nested) {owners : List Blueprint},
    (n :: ns).IsChain Inside → n.owner.blueprint.scope = inheritedScope owners →
      ∀ (k : Nat) (m : Nested), (n :: ns)[k]? = some m → m.merged = { m.blueprint with
        scope := inheritedScope (owners ++ ((n :: ns).take (k + 1)).map Nested.blueprint) }
  | _, n, _, _, inherits, 0, _, rfl => n.merged_eq inherits
  | [], _, _, _, _, _ + 1, _, hm => by cases hm
  | next :: ns, n, owners, inside, inherits, k + 1, m, hm => by
      obtain ⟨comes, inside⟩ := List.isChain_cons_cons.1 inside
      have inherits' : next.owner.blueprint.scope = inheritedScope (owners ++ [n.blueprint]) := by
        rw [comes.blueprint, making, n.merged_eq inherits]
      rw [merged_of_chain ns next inside inherits' k m hm]
      simp

/-! ### Names -/

/-- A name is searched for only if the object is a singleton. -/
theorem name_of_scope (n : Nested) :
    (n.merged.scope ≠ .singleton → n.name = n.proposed ∧ n.named = n.met) ∧
    (n.merged.scope = .singleton → ∃ k, n.met.own.FirstFree n.owner.naming n.proposed k ∧
      n.name = n.owner.naming.nth n.proposed k ∧
      n.named = n.met.modifyOwn fun c => c.grant n.name) := by
  have names := n.names
  unfold Resolver.innerName at names
  constructor
  · intro scope
    rw [if_neg fun single => scope (BlueprintOf.isSingleton_iff.1 single)] at names
    obtain ⟨name, named⟩ := Prod.mk.inj (Option.some.inj names)
    exact ⟨name.symm, named.symm⟩
  · intro scope
    rw [if_pos (BlueprintOf.isSingleton_iff.2 scope)] at names
    obtain ⟨k, first, found⟩ := Chain.run_freshName (r := n.owner.resolver) rfl n.met n.proposed
    rw [Action.reach_eq_some found] at names
    obtain ⟨name, named⟩ := Prod.mk.inj (Option.some.inj names)
    exact ⟨k, first, name.symm, by rw [← named, ← name]⟩

end Nested

/-! ### The run -/

/-- The state in which the resolution ends. -/
def Attempt.final (a : Attempt) : Chain :=
  (a.resolver.resolve a.path a.raw a.chain).2

/-- The state in which the making of the object ends. -/
def Making.final (m : Making) : Chain :=
  (Chain.create m.depth m.name m.blueprint m.chain).2

namespace Chain

open Wiring.Action (valueOf)

variable {r : Resolver Chain} {s mid : Chain}

theorem rest_of_arg (along : r.GoesAlong (Each Container.Grows)) {before after : List Raw}
    {raw : Raw} {values : List Value} (earlier : reach (resolveArgs r 0 before) s =
      some (values, mid)) :
    Each Container.Grows (r.resolve (.root (argName before.length)) raw mid).2
      (resolveArgs r 0 (before ++ raw :: after) s).2 := by
  refine Action.rest_of_each (g := fun i raws => valueOf (resolveArgs r i raws))
    (f := fun i raw => valueOf (r.resolve (.root (argName i)) raw)) (fun _ => rfl)
    (valueOf_resolveArgs_cons r) (resolveArgs_along along) after before earlier ?_
  rw [Nat.zero_add]
  exact refl_of (Each Container.Grows) _

theorem rest_of_property (along : r.GoesAlong (Each Container.Grows))
    {before after : List (String × Raw)} {name : String} {raw : Raw}
    {values : List (String × Value)} (earlier : reach (resolveProperties r before) s =
      some (values, mid)) :
    Each Container.Grows (r.resolve (.root name) raw mid).2
      (resolveProperties r (before ++ (name, raw) :: after) s).2 := by
  refine Action.rest_of_each (g := fun _ ps => valueOf (resolveProperties r ps))
    (f := fun _ p => do return (p.1, ← valueOf (r.resolve (.root p.1) p.2))) (i := 0)
    (fun _ => rfl) (fun _ ⟨name, raw⟩ ps => by
      simp only [valueOf_resolveProperties_cons, bind_assoc, pure_bind])
    (fun _ => resolveProperties_along along) after before earlier ?_
  exact Action.rest_of_bind (fun _ => Action.along_pure _) (refl_of (Each Container.Grows) _)

/-- What is left of the making of an object once its values are resolved. -/
theorem rest_of_instantiate {depth : Nat} {name : String} {b : Blueprint}
    (sound : b.className.getD "" ≠ failingClass) :
    Each Container.Grows
      (instantiate (collaborators (create depth)) name b (s.beginning name b)).2
      (create (depth + 1) name b s).2 := by
  rw [run_create_sound sound]
  rcases instantiate (collaborators (create depth)) name b (s.beginning name b) with
    ⟨⟨node, stop | v⟩, mid⟩
  · exact refl_of (Each Container.Grows) mid
  · exact along_modifyOwn (fun c => Container.grows_note c _) mid

end Chain

/-- The making of an object goes on from where one of its values has been resolved. -/
theorem Making.ComesTo.rest {m : Making} {a : Attempt} (comes : m.ComesTo a) :
    Chain.Each Container.Grows a.final m.final := by
  have new (name className : String) (args : List Value) (properties : List (String × Value)) :
      Along (Chain.Each Container.Grows) (Chain.newObject name className args properties) :=
    Chain.newObject_along Container.workAlong_grows name className args properties
  cases comes with
  | @argument depth name b chain s raw before after values sound args earlier =>
      have along := Chain.objectResolver_along depth name b
      refine trans_of (Chain.Each Container.Grows) ?_ (Chain.rest_of_instantiate sound)
      change Chain.Each Container.Grows _ ((Action.valueOf (Chain.instantiate _ _ _)).run _).2
      rw [Chain.valueOf_instantiate]
      refine Action.rest_of_bind (fun argValues =>
        Action.along_bind (Chain.resolveProperties_along along b.properties) fun properties =>
          Action.along_lift (new _ _ _ _)) ?_
      rw [args]
      exact Chain.rest_of_arg along earlier
  | @property depth name property b chain mid s raw before after args values sound arguments
      properties earlier =>
      have along := Chain.objectResolver_along depth name b
      refine trans_of (Chain.Each Container.Grows) ?_ (Chain.rest_of_instantiate sound)
      change Chain.Each Container.Grows _ ((Action.valueOf (Chain.instantiate _ _ _)).run _).2
      rw [Chain.valueOf_instantiate]
      refine Action.rest_of_reach arguments (Action.rest_of_bind (fun values =>
        Action.along_lift (new _ _ _ _)) ?_)
      rw [properties]
      exact Chain.rest_of_property along earlier

namespace Nested

/-- The resolution goes on from where the object of a nested blueprint has been made. -/
theorem rest (n : Nested) : Chain.Each Container.Grows n.making.final n.owner.final := by
  have along := n.owner.goesAlong
  obtain ⟨place, ty, visited⟩ := n.visits
  have outside := Resolver.rest_of_visit along n.owner.path .any n.owner.raw n.owner.chain visited
  rw [Resolver.converted_any] at outside
  refine trans_of (Chain.Each Container.Grows) ?_ outside
  change Chain.Each Container.Grows _
    ((Action.valueOf (n.owner.resolver.resolve n.path n.node)).run n.met).2
  rw [Resolver.valueOf_resolve_inner n.nests]
  have merges : (n.owner.resolver.collaborators.mergeBlueprint n.proposed n.blueprint
      n.owner.resolver.blueprint).reach n.met = some (n.merged, n.met) := by
    change (Action.ofExcept (Chain.mergeBlueprint n.proposed n.blueprint n.owner.blueprint)).reach
      n.met = _
    rw [n.merges]
    rfl
  refine Action.rest_of_reach ((Action.reach_mapError _ _ _).trans merges)
    (Action.rest_of_reach n.names ?_)
  rw [Action.mapError_state]
  -- the object is recorded as part of the bean, and what it depends on is made, before it is
  have recorded : Action.reach (liftM (n.owner.resolver.collaborators.registerContained n.name
      n.owner.bean) : Action Chain Unit) n.named =
        some ((), n.named.modifyOwn fun c => c.registerContained n.name n.owner.bean) := rfl
  refine Action.rest_of_reach recorded (Action.rest_of_reach n.prepares ?_)
  exact Action.rest_of_bind (fun made => by
    cases made with
    | factory factory =>
        exact Action.along_bind (Chain.unwrapProduct_along Container.workAlong_grows factory _ _)
          fun _ => Action.along_pure _
    | value v => exact Action.along_pure _
    | null => exact Action.along_pure _) (refl_of (Chain.Each Container.Grows) _)

/-- An object inside another one is made while this one is. -/
theorem Inside.rest {n m : Nested} (inside : n.Inside m) :
    Chain.Each Container.Grows m.making.final n.making.final :=
  trans_of (Chain.Each Container.Grows) m.rest (Making.ComesTo.rest inside)

/-- The making of the object is begun after the resolution is. -/
theorem begins (n : Nested) : Chain.Each Container.Grows n.owner.chain n.ready := by
  have along := n.owner.goesAlong
  obtain ⟨place, ty, visited⟩ := n.visits
  have met := (Resolver.visit_stays along n.owner.path .any n.owner.raw n.owner.chain visited).1
  have named := Attempt.innerName_grows n.names
  have recorded : Chain.Each Container.Grows n.named
      (n.named.modifyOwn fun c => c.registerContained n.name n.owner.bean) :=
    Chain.along_modifyOwn (fun c => Container.grows_registerContained c _ _) n.named
  have prepared := Action.along_of_reach
    (Resolver.prepare_along along n.name n.merged.dependsOn) n.prepares
  exact trans_of _ (trans_of _ met named) (trans_of _ recorded prepared)

/-- The objects inside one another are made while the outermost resolution runs. -/
theorem within_of_chain : ∀ (ns : List Nested) (n : Nested), (n :: ns).IsChain Inside →
    ∀ (k : Nat) (m : Nested), (n :: ns)[k]? = some m →
      Chain.Each Container.Grows n.owner.chain m.ready ∧
        Chain.Each Container.Grows m.making.final n.owner.final
  | _, n, _, 0, _, rfl => ⟨n.begins, n.rest⟩
  | [], _, _, _ + 1, _, hm => by cases hm
  | next :: ns, n, inside, k + 1, m, hm => by
      obtain ⟨comes, inside⟩ := List.isChain_cons_cons.1 inside
      obtain ⟨begins, rest⟩ := within_of_chain ns next inside k m hm
      have starts : Chain.Each Container.Grows n.ready next.owner.chain :=
        Making.ComesTo.begins comes
      refine ⟨trans_of _ n.begins (trans_of _ starts begins), ?_⟩
      exact trans_of _ rest (trans_of _ (Making.ComesTo.rest comes) n.rest)

/-- The making of the object is recorded by the container at the outside. -/
theorem recorded_of_chain {ns : List Nested} {n m : Nested} (inside : (n :: ns).IsChain Inside)
    {k : Nat} (hm : (n :: ns)[k]? = some m) (possible : 0 < m.owner.depth) :
    ∃ earlier, n.owner.chain.own.creations <+: earlier ∧
      earlier ++ [⟨m.name, m.merged⟩] <+: n.owner.final.own.creations := by
  obtain ⟨begins, rest⟩ := within_of_chain ns n inside k m hm
  obtain ⟨depth, hdepth⟩ := Nat.exists_eq_add_one.2 possible
  have made : Chain.Each Container.Grows (m.ready.beginning m.name m.merged) m.making.final := by
    rw [Making.final, making, hdepth]
    exact Chain.begun_along Container.workAlong_grows
      (Chain.create_along Container.workAlong_grows depth) m.name m.merged m.ready
  exact ⟨m.ready.own.creations, begins.own.creations,
    (trans_of (Chain.Each Container.Grows) made rest).own.creations⟩

/-- **Through any number of levels the scope is inherited from the last blueprint that is no
singleton.**  With that scope, and otherwise unchanged, the nested blueprint is what its object is
made of.  The object keeps its proposed name unless all the blueprints, the owner included, are
singletons, and only then is the first name searched for that is not in use.  The container at the
outside has kept record of the making when its resolution ends. -/
theorem scope_inherited (n : Nested) (ns : List Nested) (inside : (n :: ns).IsChain Inside)
    (k : Nat) (m : Nested) (hm : (n :: ns)[k]? = some m) :
    let bs := n.owner.blueprint :: ((n :: ns).take (k + 1)).map Nested.blueprint
    m.merged = { m.blueprint with scope := inheritedScope bs } ∧
      (inheritedScope bs = .singleton ↔ ∀ b ∈ bs, b.isSingleton) ∧
      (inheritedScope bs ≠ .singleton → m.name = m.proposed ∧ m.named = m.met) ∧
      (inheritedScope bs = .singleton → ∃ j, m.met.own.FirstFree m.owner.naming m.proposed j ∧
        m.name = m.owner.naming.nth m.proposed j ∧
        m.named = m.met.modifyOwn fun c => c.grant m.name) ∧
      (0 < m.owner.depth → ∃ earlier, n.owner.chain.own.creations <+: earlier ∧
        earlier ++ [⟨m.name, m.merged⟩] <+: n.owner.final.own.creations) := by
  intro bs
  have merged : m.merged = { m.blueprint with scope := inheritedScope bs } :=
    merged_of_chain ns n inside (inheritedScope_owner _).symm k m hm
  have scope : m.merged.scope = inheritedScope bs := by rw [merged]
  obtain ⟨kept, searched⟩ := m.name_of_scope
  rw [scope] at kept searched
  exact ⟨merged, inheritedScope_eq_singleton, kept, searched, recorded_of_chain inside hm⟩

/-- A singleton in a singleton in an owner of a scope of its own. -/
theorem scope_inherited_of_request :
    let inside : Blueprint := {
      id := 2, className := some "B", scope := .singleton, dependsOn := [], synthetic := true
      resource := none, args := [], properties := [] }
    let outside : Blueprint := {
      id := 3, className := some "A", scope := .singleton, dependsOn := [], synthetic := false
      resource := none, args := [.list [.holder "g" [] 1 inside]], properties := [] }
    let owner : Blueprint := {
      id := 4, className := none, scope := .custom "request", dependsOn := [], synthetic := false
      resource := none, args := [], properties := [] }
    let a : Attempt := {
      depth := 2, bean := "owner", blueprint := owner, path := .root "x"
      raw := .list [.holder "h" [] 0 outside], chain := ⟨{ id := "main" }, []⟩ }
    ∃ n m : Nested, n.owner = a ∧ m.blueprint = inside ∧ [n, m].IsChain Inside ∧
      m.merged = { inside with scope := .custom "request" } ∧ m.name = "g" ∧
      ⟨"g", { inside with scope := .custom "request" }⟩ ∈ a.final.own.creations := by
  intro inside outside owner a
  let s : Chain := a.chain.modifyOwn fun c => c.registerContained "h" "owner"
  let merged : Blueprint := { outside with scope := .custom "request" }
  let n : Nested := {
    owner := a, path := .index (.root "x") 0, node := .holder "h" [] 0 outside, proposed := "h"
    blueprint := outside, merged, name := "h", met := a.chain, named := a.chain, ready := s
    visits := ⟨[0], .any, rfl⟩, nests := rfl, merges := rfl, names := rfl, prepares := rfl }
  let next : Attempt := {
    depth := 1, bean := "h", blueprint := merged
    path := .root "constructor argument with index 0"
    raw := .list [.holder "g" [] 1 inside], chain := s.beginning "h" merged }
  let m : Nested := {
    owner := next, path := .index next.path 0, node := .holder "g" [] 1 inside, proposed := "g"
    blueprint := inside, merged := { inside with scope := .custom "request" }, name := "g"
    met := next.chain, named := next.chain
    ready := next.chain.modifyOwn fun c => c.registerContained "g" "h"
    visits := ⟨[0], .any, rfl⟩, nests := rfl, merges := rfl, names := rfl, prepares := rfl }
  have first : merged.args = [] ++ .list [.holder "g" [] 1 inside] :: [] := rfl
  have comes : n.Inside m := .argument (by decide) first rfl
  have chain : [n, m].IsChain Inside := .cons_cons comes (.singleton m)
  obtain ⟨made, -, kept, -, recorded⟩ := scope_inherited n [m] chain 1 m rfl
  obtain ⟨earlier, -, later⟩ := recorded (by decide)
  exact ⟨n, m, rfl, rfl, chain, made, (kept (by decide)).1, later.subset (by simp [m])⟩

end Nested

end Wiring
