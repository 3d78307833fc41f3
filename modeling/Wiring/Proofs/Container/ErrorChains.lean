import Wiring.Proofs.Container.Attempts

/-!
# Containers — the chain of an error

An error of a resolution has the error for its source with which the making of an object stopped,
and this is the error of the resolution of one of the object's values, and so on down.  Where there
are no injection points, nothing stands in between: **a source that tells a bean tells the very bean
that was being made for the link above it** (`Attempt.error_chain`), and nested blueprints that
depend on no beans add a link each, of the owner first and then of the inner beans.
-/

namespace Wiring

open Chain (Starts StartsOfType)

/-! ### Parts of a run -/

theorem Chain.Starts.depth {depth : Nat} {chain : Chain} {name : String} {m : Making}
    (h : Starts depth chain name m) : m.depth = depth := by
  induction h with
  | here => rfl
  | above _ _ _ _ ih => exact ih

theorem Chain.StartsOfType.depth {depth : Nat} {chain : Chain} {ty : Ty} {m : Making}
    (h : StartsOfType depth chain ty m) : m.depth = depth := by
  induction h with
  | here _ starts => exact starts.depth
  | above _ _ _ ih => exact ih

theorem Attempt.Follows.depth {a : Attempt} {ref : Reference} {s : Chain} {m : Making}
    (h : a.Follows ref s m) : m.depth = a.depth := by
  cases h with
  | name _ _ _ starts | type _ _ _ starts | nameAbove _ _ _ _ starts => exact starts.depth
  | typeAbove _ _ _ starts => exact starts.depth

theorem Attempt.Leads.depth {a : Attempt} {e : Error} {m : Making} (h : a.Leads e m) :
    m.depth = a.depth := by
  cases h with
  | inner => rfl
  | dependsOn _ _ _ starts => exact starts.depth
  | reference _ follows => exact follows.depth

theorem Making.ComesTo.depth {m : Making} {a : Attempt} (h : m.ComesTo a) :
    m.depth = a.depth + 1 := by
  cases h <;> rfl

theorem Making.ComesTo.origin {m : Making} {a : Attempt} (h : m.ComesTo a) :
    a.origin = m.origin := by
  cases h <;> rfl

/-! ### Parts of a run without injection points -/

/-- Neither the blueprint nor a definition of the containers has an injection point, at any
depth. -/
structure Making.Uninjected (m : Making) : Prop where
  blueprint : m.blueprint.dependencies = []
  chain : m.chain.Uninjected

theorem Chain.Uninjected.modifyOwn {chain : Chain} {f : Container → Container}
    (h : chain.Uninjected) (grows : chain.own.Grows (f chain.own)) :
    (chain.modifyOwn f).Uninjected :=
  h.of_grows ⟨grows, List.forall₂_refl chain.ancestors⟩

theorem Chain.Starts.uninjected {depth : Nat} {chain : Chain} {name : String} {m : Making}
    (h : Starts depth chain name m) (uninjected : chain.Uninjected) : m.Uninjected := by
  induction h with
  | here absent defined =>
      exact ⟨uninjected _ List.mem_cons_self _ _ defined,
        uninjected.modifyOwn (Container.grows_note _ _)⟩
  | above _ _ ancestors _ ih => exact ih (uninjected.above ancestors)

theorem Chain.StartsOfType.uninjected {depth : Nat} {chain : Chain} {ty : Ty} {m : Making}
    (h : StartsOfType depth chain ty m) (uninjected : chain.Uninjected) : m.Uninjected := by
  induction h with
  | here _ starts => exact starts.uninjected uninjected
  | above _ ancestors _ ih => exact ih (uninjected.above ancestors)

namespace Attempt

variable {a : Attempt} {m : Making} {e : Error} {s s' : Chain}

theorem evaluated_uninjected {text name : String} (h : s.Uninjected)
    (evaluated : (a.resolver.evaluateName text).reach s = some (name, s')) : s'.Uninjected :=
  h.of_grows (Action.along_of_reach (Resolver.evaluateName_along a.goesAlong text) evaluated)

theorem Follows.uninjected {ref : Reference} (h : a.Follows ref s m) (uninjected : s.Uninjected) :
    m.Uninjected := by
  cases h with
  | name _ _ evaluated starts => exact starts.uninjected (evaluated_uninjected uninjected evaluated)
  | type _ _ _ starts => exact starts.uninjected uninjected
  | nameAbove _ _ evaluated ancestors starts =>
      exact starts.uninjected ((evaluated_uninjected uninjected evaluated).above ancestors)
  | typeAbove _ _ ancestors starts => exact starts.uninjected (uninjected.above ancestors)

theorem innerName_grows {proposed inner : String} {merged : Blueprint}
    (named : (a.resolver.innerName proposed merged).reach s = some (inner, s')) :
    Chain.Each Container.Grows s s' := by
  unfold Resolver.innerName at named
  split at named
  · obtain ⟨k, -, hrun⟩ := Chain.run_freshName (r := a.resolver) rfl s proposed
    rw [Action.reach_eq_some hrun] at named
    cases named
    exact ⟨Container.grows_grant _ _, List.forall₂_refl s.ancestors⟩
  · cases named
    exact refl_of (Chain.Each Container.Grows) s

theorem Visits.uninjected {p : ArgPath} {node : Raw} (h : a.Visits p node s)
    (uninjected : a.Uninjected) : node.dependencies = [] ∧ s.Uninjected := by
  obtain ⟨place, ty, visited⟩ := h
  exact uninjected.visits visited

theorem Takes.uninjected {p : ArgPath} {inner : String} {merged : Blueprint}
    (h : a.Takes p inner merged s) (uninjected : a.Uninjected) :
    merged.dependencies = [] ∧ s.Uninjected := by
  obtain ⟨visits, nests, merges, named⟩ := h
  obtain ⟨points, uninjected⟩ := visits.uninjected uninjected
  refine ⟨(Chain.dependencies_of_merge merges).trans (Resolver.dependencies_of_inner nests points),
    ?_⟩
  exact (uninjected.of_grows (innerName_grows named)).modifyOwn
    (Container.grows_registerContained _ _ _)

theorem prepared_uninjected {inner : String} {names : List String} (h : s.Uninjected)
    (prepared : (a.resolver.prepare inner names).reach s = some ((), s')) : s'.Uninjected :=
  h.of_grows (Action.along_of_reach (Resolver.prepare_along a.goesAlong inner names) prepared)

theorem Leads.uninjected (h : a.Leads e m) (uninjected : a.Uninjected) : m.Uninjected := by
  cases h with
  | inner takes prepared =>
      obtain ⟨points, clean⟩ := takes.uninjected uninjected
      exact ⟨points, prepared_uninjected clean prepared⟩
  | dependsOn takes _ prepared starts =>
      have clean := prepared_uninjected (takes.uninjected uninjected).2 prepared
      exact starts.uninjected (clean.modifyOwn (Container.grows_registerDependent _ _ _))
  | reference visits follows => exact follows.uninjected (visits.uninjected uninjected).2

end Attempt

theorem Chain.objectResolver_along (depth : Nat) (name : String) (b : Blueprint) :
    (objectResolver depth name b).GoesAlong (Each Container.Grows) :=
  goesAlong Container.workAlong_grows (create_along Container.workAlong_grows depth) rfl

/-- The values of an object are resolved after its making is begun. -/
theorem Making.ComesTo.begins {m : Making} {a : Attempt} (h : m.ComesTo a) :
    Chain.Each Container.Grows m.chain a.chain := by
  have begun := Chain.each_beginning Container.workAlong_grows
  cases h with
  | @argument depth name b _ _ _ before _ _ _ _ earlier =>
      have along := Chain.objectResolver_along depth name b
      exact trans_of _ (begun _ _ _) ((Chain.resolveArgs_along along 0 before).of_reach earlier)
  | @property depth name _ b _ _ _ _ before _ _ _ _ arguments _ earlier =>
      have along := Chain.objectResolver_along depth name b
      exact trans_of _ (begun _ _ _) (trans_of _
        ((Chain.resolveArgs_along along 0 b.args).of_reach arguments)
        ((Chain.resolveProperties_along along before).of_reach earlier))

theorem Making.ComesTo.uninjected {m : Making} {a : Attempt} (h : m.ComesTo a)
    (uninjected : m.Uninjected) : a.Uninjected := by
  refine ⟨?_, uninjected.chain.of_grows h.begins⟩
  cases h with
  | @argument _ _ b _ _ raw _ _ _ _ args _ =>
      have hraw : raw ∈ b.args := by simp [args]
      exact Raw.dependencies_of_arg uninjected.blueprint hraw
  | @property _ _ property b _ _ _ raw _ _ _ _ _ _ properties _ =>
      have hraw : (property, raw) ∈ b.properties := by simp [properties]
      exact Raw.dependencies_of_property uninjected.blueprint hraw

/-! ### The chain of an error -/

/-- The second resolution is part of the first: it is the same, or a value is resolved for an object
that the first one makes. -/
inductive Attempt.Reaches : Attempt → Attempt → Prop
  | refl (a : Attempt) : Reaches a a
  | step {a next b : Attempt} {e : Error} {m : Making} (leads : a.Leads e m)
    (comes : m.ComesTo next) (rest : Reaches next b) : Reaches a b

/-- The second resolution is that of a value of a nested blueprint of the first one, or of one
nested in this, and so on, none of which depends on a bean.  The list tells the inner beans in
between, the outermost first. -/
inductive Attempt.Nests : Attempt → List Origin → Attempt → Prop
  | refl (a : Attempt) : Nests a [] a
  | step {a next b : Attempt} {p : ArgPath} {inner : String} {merged : Blueprint} {s : Chain}
    {inners : List Origin} (takes : a.Takes p inner merged s) (independent : merged.dependsOn = [])
    (comes : Making.ComesTo ⟨a.depth, inner, merged, s⟩ next) (rest : Nests next inners b) :
    Nests a (⟨inner, merged.resource⟩ :: inners) b

theorem Error.chain_eq (e : Error) : e.chain = e :: e.source?.elim [] Error.chain := by
  cases e <;> rfl

theorem Error.source?_rootCause (e : Error) : e.rootCause.source? = none := by
  induction e with
  | reference _ _ _ ih | elementType _ _ ih | innerBean _ _ _ _ ih | typedValue _ _ ih => exact ih
  | _ => rfl

namespace Attempt

variable {a b : Attempt} {m : Making} {e : Error}

/-- An object that stops with an error of a bean stops with an error of its own, that of one of its
values. -/
theorem comesTo_of_origin (uninjected : m.Uninjected) (failed : m.Fails e) {origin : Origin}
    (told : e.origin? = some origin) :
    m.origin = origin ∧ ∃ next, m.ComesTo next ∧ next.Fails e := by
  have placed : e.site? ≠ none := fun none => by rw [Error.origin?, none] at told; cases told
  obtain ⟨next, comes, fails⟩ := (Making.comesTo_of_fails failed).resolve_left placed
  have own := (leads_of_fails (comes.uninjected uninjected) fails).1.resolve_left placed
  exact ⟨comes.origin.symm.trans (Option.some.inj (own.symm.trans told)), next, comes, fails⟩

/-- An error with a source stands under the error of a making only. -/
theorem comesTo_of_source (uninjected : a.Uninjected) (failed : a.Fails e) {cause link : Error}
    (hcause : e.source? = some cause) (hlink : link ∈ cause.chain) (deep : link.source? ≠ none) :
    ∃ m next, a.Leads e m ∧ m.ComesTo next ∧ next.Uninjected ∧ next.Fails cause := by
  -- a cause without a place ends the chain, and the link is not its end
  have placed : cause.site? ≠ none := by
    intro plain
    have last := Error.source?_of_site? plain
    rw [Error.chain_eq, last] at hlink
    exact deep (List.mem_singleton.1 hlink ▸ last)
  obtain ⟨m, leads, fails⟩ :=
    ((leads_of_fails uninjected failed).2 cause hcause).resolve_left placed
  obtain ⟨next, comes, fails⟩ := (Making.comesTo_of_fails fails).resolve_left placed
  exact ⟨m, next, leads, comes, comes.uninjected (leads.uninjected uninjected), fails⟩

/-- **In the chain of an error, a source that tells a bean tells the bean that was being made for
the link above it.** -/
theorem leads_of_link : ∀ (depth : Nat) {a : Attempt} {e : Error}, a.depth = depth →
    a.Uninjected → a.Fails e → ∀ link ∈ e.chain, ∀ source origin, link.source? = some source →
      source.origin? = some origin →
      ∃ b m, a.Reaches b ∧ b.Fails link ∧ b.Leads link m ∧ m.Fails source ∧ m.origin = origin
  | depth, a, e, hdepth, uninjected, failed, link, hlink, source, origin, hsource, told => by
      rw [Error.chain_eq] at hlink
      rcases List.mem_cons.1 hlink with rfl | hlink
      · obtain plain | ⟨m, leads, fails⟩ := (leads_of_fails uninjected failed).2 source hsource
        · rw [Error.origin?, plain] at told
          cases told
        · obtain ⟨own, -⟩ := comesTo_of_origin (leads.uninjected uninjected) fails told
          exact ⟨a, m, .refl a, failed, leads, fails, own⟩
      · cases hcause : e.source? with
        | none => rw [hcause] at hlink; cases hlink
        | some cause =>
            rw [hcause, Option.elim_some] at hlink
            obtain ⟨m, next, leads, comes, uninjected', failed'⟩ :=
              comesTo_of_source uninjected failed hcause hlink (by rw [hsource]; exact nofun)
            -- an object's values are resolved one level further down
            have deeper : depth = next.depth + 1 :=
              hdepth.symm.trans (leads.depth.symm.trans comes.depth)
            cases depth with
            | zero => cases deeper
            | succ depth =>
                obtain ⟨b, m', reaches, found⟩ := leads_of_link depth (Nat.succ.inj deeper).symm
                  uninjected' failed' link hlink source origin hsource told
                exact ⟨b, m', .step leads comes reaches, found⟩

/-- What the object of a nested blueprint stops with, the resolution stops with, as the source of an
error of its own. -/
theorem fails_of_takes {p : ArgPath} {inner : String} {merged : Blueprint} {s : Chain}
    (takes : a.Takes p inner merged s) (independent : merged.dependsOn = [])
    (failed : Making.Fails ⟨a.depth, inner, merged, s⟩ e) :
    a.Fails (.innerBean (a.resolver.site p) inner merged.className e) := by
  obtain @⟨node, proposed, nested, mid, s', ⟨place, ty, visited⟩, nests, merges, named⟩ := takes
  have created : (a.resolver.createInner inner merged).error? s' = some e := by
    rw [Resolver.createInner, Action.error?_bind_lift, Resolver.makeInner, independent]
    exact Action.error?_bind_right rfl (Action.error?_bind_left (congrArg Stop.error? failed))
  have merges : (a.resolver.collaborators.mergeBlueprint proposed nested a.blueprint).reach mid =
      some (merged, mid) := by
    change (Action.ofExcept (Chain.mergeBlueprint proposed nested a.blueprint)).reach mid = _
    rw [merges]
    rfl
  have stops := Resolver.error?_of_fault a.path .any a.raw a.chain visited
    (.inner nests merges named created)
  rw [Resolver.converted_any] at stops
  exact Stop.eq_of_error? stops

/-- **A failure under nested blueprints that depend on no beans** comes out with a link for each of
them: the first is of the resolution's bean, and each further one of the inner bean before. -/
theorem links_of_nests {inners : List Origin} (nests : a.Nests inners b) (failed : b.Fails e) :
    ∃ links e', a.Fails e' ∧ e'.chain = links ++ e.chain ∧
      links.map Error.origin? = (a.origin :: inners).dropLast.map some ∧
      List.Forall₂ (fun link inner => ∃ site className source,
        link = .innerBean site inner.bean className source) links inners := by
  induction nests with
  | refl a => exact ⟨[], e, failed, rfl, rfl, .nil⟩
  | @step a next b p inner merged s inners takes independent comes rest ih =>
      obtain ⟨links, e', failed, hchain, horigins, hinners⟩ := ih failed
      refine ⟨.innerBean (a.resolver.site p) inner merged.className e' :: links, _,
        fails_of_takes takes independent (Making.fails_of_comesTo comes failed), ?_, ?_,
        .cons ⟨_, _, _, rfl⟩ hinners⟩
      · rw [Error.chain, hchain, List.cons_append]
      · rw [List.map_cons, horigins, comes.origin]
        rfl

/-- **The chain of an error links the beans on the way to the cause.**  Where there are no injection
points, a link whose source tells a bean is the error of a resolution in the run, and the bean is
the one whose making that resolution had started, for want of which it stopped: the inner bean by
the name it got, a bean the inner bean depends on, or the bean that the reference led to, in the
container that defines it.  At the end stands an error without a source.  A failure under nested
blueprints that depend on no beans has a link for each of them, of the owner first and then of the
inner beans in order. -/
theorem error_chain (a : Attempt) (uninjected : a.Uninjected) :
    (∀ e, a.Fails e → e.rootCause.source? = none ∧
      ∀ link ∈ e.chain, ∀ source origin, link.source? = some source →
        source.origin? = some origin →
        ∃ b m, a.Reaches b ∧ b.Fails link ∧ b.Leads link m ∧ m.Fails source ∧ m.origin = origin) ∧
    ∀ inners b e, a.Nests inners b → b.Fails e →
      ∃ links e', a.Fails e' ∧ e'.chain = links ++ e.chain ∧
        links.map Error.origin? = (a.origin :: inners).dropLast.map some ∧
        List.Forall₂ (fun link inner => ∃ site className source,
          link = .innerBean site inner.bean className source) links inners :=
  ⟨fun e failed => ⟨e.source?_rootCause, leads_of_link a.depth rfl uninjected failed⟩,
    fun _ _ _ nests failed => links_of_nests nests failed⟩

/-- An inner bean of an inner bean refers to a bean above, which cannot be made. -/
theorem error_chain_of_nested :
    let svc : Blueprint := {
      id := 1, className := some "S", scope := .singleton, dependsOn := [], synthetic := false
      resource := none, args := [.reference { target := .name "missing" }], properties := [] }
    let inside : Blueprint := {
      id := 2, className := some "B", scope := .singleton, dependsOn := [], synthetic := false
      resource := none, args := [], properties := [("q", .reference { target := .name "svc" })] }
    let outside : Blueprint := {
      id := 3, className := some "A", scope := .singleton, dependsOn := [], synthetic := false
      resource := none, args := [], properties := [("p", .holder "g" [] 1 inside)] }
    let owner : Blueprint := {
      id := 4, className := none, scope := .singleton, dependsOn := [], synthetic := false
      resource := none, args := [], properties := [] }
    let top : Container := { id := "top" : Container }.registerBlueprint "svc" svc
    let a : Attempt := {
      depth := 3, bean := "owner", blueprint := owner, path := .root "x"
      raw := .list [.holder "h" [] 0 outside], chain := ⟨{ id := "main" }, [top]⟩ }
    let last : Error := .reference ⟨⟨"svc", none⟩, "constructor argument with index 0"⟩ "missing"
      (.noSuchBean "missing")
    let link : Error := .reference ⟨⟨"g", none⟩, "q"⟩ "svc" last
    let e : Error := .innerBean ⟨⟨"owner", none⟩, "x[0]"⟩ "h" (some "A")
      (.innerBean ⟨⟨"h", none⟩, "p"⟩ "g" (some "B") link)
    a.Uninjected ∧ a.Fails e ∧
      (∃ b m, a.Reaches b ∧ b.Fails link ∧ b.Leads link m ∧ m.Fails last ∧
        m.origin = ⟨"svc", none⟩) ∧
      ∃ b, a.Nests [⟨"h", none⟩, ⟨"g", none⟩] b ∧ b.Fails link ∧
        ∃ links e', a.Fails e' ∧ e'.chain = links ++ link.chain ∧
          links.map Error.origin? = [some ⟨"owner", none⟩, some ⟨"h", none⟩] := by
  intro svc inside outside owner top a last link e
  have failed : a.Fails e := Stop.eq_of_error? (by decide +kernel)
  have uninjected : a.Uninjected := by
    refine ⟨rfl, List.forall_mem_cons.2 ⟨Container.uninjected_empty _, List.forall_mem_cons.2 ⟨?_,
      List.forall_mem_nil _⟩⟩⟩
    exact (Container.uninjected_empty _).registerBlueprint _ rfl
  refine ⟨uninjected, failed, ?_, ?_⟩
  · have hlink : link ∈ e.chain := by simp [e, Error.chain, link, last]
    exact ((error_chain a uninjected).1 e failed).2 link hlink last _ rfl rfl
  · have nests : ∃ b, a.Nests [⟨"h", none⟩, ⟨"g", none⟩] b ∧ b.Fails link := by
      let s : Chain :=
        (a.chain.modifyOwn fun c => c.grant "h").modifyOwn fun c => c.registerContained "h" "owner"
      let next : Attempt := {
        depth := 2, bean := "h", blueprint := outside, path := .root "p"
        raw := .holder "g" [] 1 inside, chain := s.beginning "h" outside }
      let s' : Chain := (next.chain.modifyOwn fun c => c.grant "g").modifyOwn fun c =>
        c.registerContained "g" "h"
      let b : Attempt := {
        depth := 1, bean := "g", blueprint := inside, path := .root "q"
        raw := .reference { target := .name "svc" }, chain := s'.beginning "g" inside }
      have takes : a.Takes (.index (.root "x") 0) "h" outside s := .mk ⟨[0], .any, rfl⟩ rfl rfl rfl
      have takes' : next.Takes (.root "p") "g" inside s' := .mk ⟨[], .any, rfl⟩ rfl rfl rfl
      have outer : outside.properties = [] ++ [("p", .holder "g" [] 1 inside)] := rfl
      have inner : inside.properties = [] ++ [("q", .reference { target := .name "svc" })] := rfl
      have comes : Making.ComesTo ⟨3, "h", outside, s⟩ next := .property (by decide) rfl outer rfl
      have comes' : Making.ComesTo ⟨2, "g", inside, s'⟩ b := .property (by decide) rfl inner rfl
      exact ⟨b, .step takes rfl comes (.step takes' rfl comes' (.refl b)),
        Stop.eq_of_error? (by decide +kernel)⟩
    obtain ⟨b, nests, fails⟩ := nests
    obtain ⟨links, e', failed', hchain, horigins, -⟩ :=
      (error_chain a uninjected).2 _ b _ nests fails
    exact ⟨b, nests, fails, links, e', failed', hchain, horigins⟩

end Attempt

end Wiring
