import Wiring.Proofs.Session.Work

/-!
# Sessions — one bean for a singleton

**A singleton has one bean through every run** (`singleton_has_one_bean`), whichever way it is asked
for: what is handed out is noted at its home, the beans noted there are one (`Orderly`), and the work
of the run is covered by the session after it, so that whatever asks for the bean is given that one
(`Gives`).  This goes for the objects that are made of it on the way, too.

The exception is a bean whose making is begun again while it is under way: nothing detects circular
definitions, and what comes back to itself can come to an end with a second object
(`circular_singleton_has_two_beans`).
-/

namespace Wiring.Session

open Container

/-- In all work that the session covers, whatever asks for the bean of the home is given the bean:
look-ups by name, by type and for an injection point, references and injection points that stand in a
blueprint, and so the objects made of it. -/
structure Gives (t : Session) (home : Home) (bean : Managed) : Prop where
  byName {depth : Nat} {name : String} {found : Managed} {chain after : Chain}
    (covered : t.Covers after) (asked : chain.home? name = some home)
    (h : (Chain.getByName (Chain.create depth) name).run chain = (.ok found, after)) : found = bean
  ofType {depth : Nat} {ty : Ty} {found : NamedBean} {chain after : Chain}
    (covered : t.Covers after) (asked : chain.home? found.name = some home)
    (h : (Chain.resolveNamedByType (Chain.create depth) ty).run chain = (.ok found, after)) :
    found.bean = bean
  byType {depth : Nat} {ty : Ty} {found : Managed} {chain after : Chain}
    (covered : t.Covers after) (asked : chain.homeOfType? depth ty = some home)
    (h : (Chain.getByType (Chain.create depth) ty).run chain = (.ok found, after)) : found = bean
  injected {depth : Nat} {d : Dependency} {requesting name : String} {selection : Selection}
    {chain after : Chain} (covered : t.Covers after)
    (chosen : chain.own.chosen d requesting = .ok (some name))
    (asked : chain.home? name = some home)
    (h : (Chain.resolveDependency (Chain.create depth) d requesting).run chain =
      (.ok selection, after)) : selection.value = bean.toValue
  leaf {depth : Nat} {evaluation : Evaluation} {r : Resolver Chain} {raw : Raw} {v : Value}
    {chain after : Chain}
    (hr : r.collaborators = Chain.collaborators (Chain.create depth) evaluation)
    (covered : t.Covers after) (asked : chain.asked? depth evaluation r.bean raw = some home)
    (h : r.Resolves raw v chain after) : v = bean.toValue
  prepared {depth : Nat} {evaluation : Evaluation} {r : Resolver Chain} {inner d : String}
    {names : List String} {chain after : Chain}
    (hr : r.collaborators = Chain.collaborators (Chain.create depth) evaluation)
    (covered : t.Covers after) (hd : d ∈ names) (asked : chain.home? d = some home)
    (h : (r.prepare inner names).run chain = (.ok (), after)) : after.Notes home bean
  /-- An object is put together of what its leaves come to, each in its turn, and those that ask for
  the bean come to it. -/
  made {depth : Nat} {name : String} {b node : Blueprint} {object : Managed} {chain after : Chain}
    (covered : t.Covers after)
    (h : Chain.create (depth + 1) name b chain = (⟨node, .ok object⟩, after)) :
    ∃ vs, OneByOne (Chain.Each Continues)
        (fun leaf v s s' => (Chain.objectResolver depth name b).Resolves leaf v s s' ∧
          (s.asked? depth .placeholders name leaf = some home → v = bean.toValue))
        b.leaves vs chain after ∧ Chain.Holds name b vs object

/-- **Where one bean only has been handed out for a name, it is what all covered work is given.** -/
theorem gives_of_handed {t : Session} {home : Home} {bean : Managed} {m : Member}
    (hm : t.member? home.container = some m)
    (one : ∀ other ∈ m.container.handed home.name, other = bean) : t.Gives home bean := by
  have same : ∀ {chain : Chain} {other : Managed}, t.Covers chain → chain.Notes home other →
      other = bean := fun covers noted => one _ (covers.noted noted hm)
  refine {
    byName := fun covered asked h => ?_
    ofType := fun covered asked h => ?_
    byType := fun covered asked h => ?_
    injected := fun covered chosen asked h => ?_
    leaf := fun hr covered asked h => ?_
    prepared := fun hr covered hd asked h => ?_
    made := fun {depth name b node object chain after} covered h => ?_ }
  · obtain ⟨other, lives, noted⟩ := Chain.getByName_notes h
    obtain rfl := Option.some.inj (asked.symm.trans lives)
    exact same covered noted
  · obtain ⟨-, other, lives, noted⟩ := Chain.resolveNamedByType_notes h
    obtain rfl := Option.some.inj (asked.symm.trans lives)
    exact same covered noted
  · obtain ⟨other, lives, noted⟩ := Chain.getByType_notes h
    obtain rfl := Option.some.inj (asked.symm.trans lives)
    exact same covered noted
  · rcases Chain.resolveDependency_notes h with
      ⟨none, -⟩ | ⟨name, other, found, named, -, lives, noted, hvalue⟩
    · rw [chosen] at none
      cases none
    · rw [chosen] at named
      cases named
      obtain rfl := Option.some.inj (asked.symm.trans lives)
      rw [hvalue, same covered noted]
  · obtain ⟨found, noted, rfl⟩ := Chain.leaf_notes hr asked h
    rw [same covered noted]
  · obtain ⟨other, found, lives, noted⟩ := Chain.prepare_notes hr _ _ h _ hd
    obtain rfl := Option.some.inj (asked.symm.trans lives)
    exact same covered noted ▸ noted
  · obtain ⟨vs, leaves, holds⟩ := Chain.create_leaves workAlong_continues h
    have hgoes := Chain.objectResolver_goesAlong workAlong_continues depth name b
    refine ⟨vs, leaves.imp_within (fun resolves => resolves.along hgoes)
      (fun _ resolves hafter => ⟨resolves, fun asked => ?_⟩) (refl_of _ chain) (refl_of _ after),
      holds⟩
    obtain ⟨found, noted, rfl⟩ :=
      Chain.leaf_notes (r := Chain.objectResolver depth name b) rfl asked resolves
    rw [same (covered.earlier hafter) noted]

/-- **A singleton has one bean through every run**, in a container in which no name is registered
twice, unless the making of the bean is begun again while it is under way.  Whatever the chains of the
run hand out is noted at the home of what is asked for; all work of the run is covered by the session
after it, from the first state to the last; and whatever asks for the bean there is given the one
bean. -/
theorem singleton_has_one_bean :
    (∀ depth chain, Chain.Accounts depth chain) ∧
    (∀ (s : Session) before e after m final chain, Grounded s.outline →
      (s.run (before ++ e :: after)).member? e.container = some m →
      (s.run before).Does e.container e.step final →
      Chain.Each Continues chain final → (s.run (before ++ e :: after)).Covers chain) ∧
    ∀ containers owner blueprint naming evaluation shelf entries id m name,
      ((start containers owner blueprint naming evaluation shelf).run entries).member? id =
        some m →
      m.container.registrations.Nodup → m.container.scope? name = some .singleton →
      m.container.progress name ≠ .overlapping →
      ∃ bean, (∀ other ∈ m.container.handed name, other = bean) ∧
        ((start containers owner blueprint naming evaluation shelf).run entries).Gives ⟨id, name⟩
          bean := by
  refine ⟨Chain.accounts, ?_, ?_⟩
  · intro s before e after m final chain grounded hm does continues
    have hrun : s.run (before ++ e :: after) = (((s.run before).take e).2).run after :=
      run_append s before (e :: after)
    have hlater := run_keeps stepAlong_serves after ((s.run before).take e).2
    rw [hrun] at hm ⊢
    obtain ⟨taken, htaken, -⟩ := hlater.earlier hm
    obtain ⟨first, hfirst, -⟩ := (take_keeps stepAlong_serves (s.run before) e).earlier htaken
    have acyclic : (s.run before).Acyclic :=
      acyclic_of_grounded ((outline_run s before).symm ▸ grounded)
    exact ((covers_take does acyclic hfirst).later hlater).earlier continues
  · intro containers owner blueprint naming evaluation shelf entries id m name h once defined apart
    have orderly := orderly_run containers owner blueprint naming evaluation shelf entries h once
    have kept : ∀ other ∈ m.container.handed name, other =
        (m.container.singletons.get? name).getD .null := fun other hother => by
      rw [orderly.one defined apart hother]
      rfl
    exact ⟨_, kept, gives_of_handed h kept⟩

/-- A service is handed out to a helper for an injection point and by type; to a client in the
container below by its name, by an alias and by type; and then by order of the session: always the
same bean. -/
theorem singleton_has_one_bean_of_service :
    let service : Blueprint := {
      id := 1, className := some "S", scope := .singleton, dependsOn := [], synthetic := false
      resource := none, args := [], properties := [] }
    let helper : Blueprint := { service with
      id := 2, className := some "H"
      args := [.dependency ⟨"x", .named "S", true⟩, .reference ⟨.type (.named "S"), false⟩] }
    let client : Blueprint := { service with
      id := 3, className := some "C"
      args := [.reference ⟨.name "helper", false⟩, .reference ⟨.name "service", false⟩,
        .list [.reference ⟨.name "alias", true⟩, .reference ⟨.type (.named "S"), true⟩]] }
    let s := start [("top", none), ("main", some "top")] "owner" client
    let registrations : List Entry := [
      { container := "top", step := .registerBlueprint "service" service },
      { container := "top", step := .registerAlias "alias" "service" },
      { container := "top", step := .registerBlueprint "helper" helper }]
    let make : Entry := { container := "main", step := .create "client" 0 client }
    let ask : Entry := { container := "main", step := .getByName "alias" }
    let t := s.run (registrations ++ [make, ask])
    ∃ m bean, t.member? "top" = some m ∧ (m.container.handed "service").length = 6 ∧
      (∀ other ∈ m.container.handed "service", other = bean) ∧
      (∃ found after, (Chain.getByName maker "alias").run
          ((s.run (registrations ++ [make])).chain "main") = (.ok found, after) ∧ found = bean) ∧
      ∃ node object final vs, Chain.create (depthLimit + 1) "client" client
          ((s.run registrations).chain "main") = (⟨node, .ok object⟩, final) ∧
        OneByOne (Chain.Each Continues)
          (fun leaf v s s' => (Chain.objectResolver depthLimit "client" client).Resolves leaf v s s' ∧
            (s.asked? depthLimit .placeholders "client" leaf = some ⟨"top", "service"⟩ →
              v = bean.toValue)) client.leaves vs ((s.run registrations).chain "main") final ∧
        Chain.Holds "client" client vs object := by
  intro service helper client s registrations make ask t
  have hrun : (t.member? "top").map (fun m =>
      (m.container.registrations, (m.container.handed "service").length,
        m.container.scope? "service", m.container.progress "service")) =
      some (["service", "alias", "helper"], 6, some .singleton, .idle) := by
    decide +kernel
  obtain ⟨m, hm, hread⟩ := Option.map_eq_some_iff.1 hrun
  obtain ⟨hregistrations, hlength, hscope, hprogress⟩ :
    m.container.registrations = ["service", "alias", "helper"] ∧
      (m.container.handed "service").length = 6 ∧
      m.container.scope? "service" = some .singleton ∧ m.container.progress "service" = .idle := by
    simpa only [Prod.mk.injEq] using hread
  obtain ⟨-, covered, one⟩ := singleton_has_one_bean
  obtain ⟨bean, handed, gives⟩ := one [("top", none), ("main", some "top")] "owner" client {}
    .placeholders {} (registrations ++ [make, ask]) "top" m "service" hm
    (by rw [hregistrations]; decide) hscope (by rw [hprogress]; decide)
  have grounded : Grounded s.outline := by
    rw [outline_start]
    exact ⟨nofun, by simp, trivial⟩
  have hmain : (t.member? "main").isSome := by decide +kernel
  obtain ⟨m', hm'⟩ := Option.isSome_iff_exists.1 hmain
  refine ⟨m, bean, hm, hlength, handed, ?_, ?_⟩
  · obtain ⟨found, hfound⟩ := exists_ok ((Chain.getByName maker "alias").run
      ((s.run (registrations ++ [make])).chain "main")) (by decide +kernel)
    refine ⟨found, _, hfound, gives.byName ?_ ?_ hfound⟩
    · exact covered s (registrations ++ [make]) ask [] m' _ _ grounded
        (by rw [List.append_assoc]; exact hm') (.getByName "alias") (refl_of _ _)
    · decide +kernel
  · have hok : (Chain.create (depthLimit + 1) "client" client
        ((s.run registrations).chain "main")).1.outcome.toOption.isSome := by
      decide +kernel
    rcases hrun : Chain.create (depthLimit + 1) "client" client
      ((s.run registrations).chain "main") with ⟨⟨node, outcome⟩, final⟩
    rw [hrun] at hok
    obtain ⟨object, hobject⟩ := Option.isSome_iff_exists.1 hok
    obtain rfl : outcome = .ok object := ok_of_toOption hobject
    have does : (s.run registrations).Does make.container make.step final := by
      have does : (s.run registrations).Does make.container make.step
          (Chain.create (depthLimit + 1) "client" client ((s.run registrations).chain "main")).2 :=
        .create "client" 0 client
      rwa [hrun] at does
    obtain ⟨vs, leaves, holds⟩ :=
      gives.made (covered s registrations make [ask] m' _ _ grounded hm' does (refl_of _ _)) hrun
    exact ⟨node, object, final, vs, rfl, leaves, holds⟩

/-- The number of a built object that a bean is. -/
def serial? : Managed → Option Nat
  | .value (.object (.built identity _ _ _ _)) => some identity.serial
  | _ => none

/-- A bean that comes back to itself has two objects: the product of the factory `z` is of the class
that the injection point of `n` asks for, so the inner making of `n` finds another bean than the one
that waits for it. -/
theorem circular_singleton_has_two_beans :
    let base : Blueprint := {
      id := 1, className := some "T", scope := .singleton, dependsOn := [], synthetic := false
      resource := none, args := [], properties := [] }
    let n : Blueprint := { base with
      id := 2, className := some "N", args := [.dependency ⟨"z", .named "T", true⟩] }
    let a : Blueprint := { base with
      id := 3, args := [.reference { target := .name "z" }, .reference { target := .name "n" }] }
    let z : Blueprint := { base with
      id := 4, className := some "test.Factory", properties := [("product", .nested 0 base)] }
    let entries : List Entry := [
      { container := "main", step := .registerBlueprint "n" n },
      { container := "main", step := .registerBlueprint "a" a },
      { container := "main", step := .registerBlueprint "z" z },
      { container := "main", step := .getByName "n" }]
    ∃ m, ((start [("main", none)] "owner" base).run entries).member? "main" = some m ∧
      m.container.registrations.Nodup ∧ m.container.scope? "n" = some .singleton ∧
      ∃ x ∈ m.container.handed "n", ∃ y ∈ m.container.handed "n", x ≠ y := by
  intro base n a z entries
  have hrun : (((start [("main", none)] "owner" base).run entries).member? "main").map (fun m =>
      (m.container.registrations, m.container.scope? "n",
        (m.container.handed "n").map serial?)) =
      some (["n", "a", "z"], some .singleton, [some 2, some 4]) := by
    decide +kernel
  obtain ⟨m, hm, hread⟩ := Option.map_eq_some_iff.1 hrun
  obtain ⟨hregistrations, hscope, hserials⟩ :
    m.container.registrations = ["n", "a", "z"] ∧ m.container.scope? "n" = some .singleton ∧
      (m.container.handed "n").map serial? = [some 2, some 4] := by
    simpa only [Prod.mk.injEq] using hread
  have htwo : some 2 ∈ (m.container.handed "n").map serial? := by rw [hserials]; decide
  have hfour : some 4 ∈ (m.container.handed "n").map serial? := by rw [hserials]; decide
  obtain ⟨x, hx, hserial⟩ := List.mem_map.1 htwo
  obtain ⟨y, hy, hserial'⟩ := List.mem_map.1 hfour
  refine ⟨m, hm, by rw [hregistrations]; decide, hscope, x, hx, y, hy, ?_⟩
  rintro rfl
  rw [hserial] at hserial'
  cases hserial'

end Wiring.Session
