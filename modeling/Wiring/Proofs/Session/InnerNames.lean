import Wiring.Proofs.Container.Grants
import Wiring.Proofs.Session.Along

/-!
# Sessions — the names of inner beans

The log of granted names through whole runs.  **Whatever is done in a session, in whatever order
and with whatever success, each nested singleton gets the first name that is not in use at that
moment, and no container grants a name twice** (`innerNames_fresh`).
-/

namespace Wiring.Session

open Container

theorem stepAlong_honours : StepAlong Honours where
  toWorkAlong := workAlong_honours
  id h := h.id
  registerBlueprint c name b := by
    rw [registerBlueprint]
    split <;> exact .of_eq rfl rfl rfl
  registerSingleton c name v := by
    unfold registerSingleton
    split <;> exact .of_eq rfl rfl rfl
  registerNull _ _ := .of_eq rfl rfl rfl
  registerType _ _ := .of_eq rfl rfl rfl
  registerAlias _ _ _ := .of_eq rfl rfl rfl
  reportStaleCandidate _ _ := .of_eq rfl rfl rfl
  definePlaceholder _ _ _ := .of_eq rfl rfl rfl
  refresh _ _ _ := .of_eq rfl rfl rfl

/-- A new container has granted no name. -/
theorem settled_start {containers : List (String × Option String)} {owner : String}
    {blueprint : Blueprint} {naming : Naming} {evaluation : Evaluation} {shelf : Shelf}
    {id : String} {m : Member}
    (h : (start containers owner blueprint naming evaluation shelf).member? id = some m) :
    m.container.Settled := by
  obtain ⟨⟨new, parent⟩, -, rfl⟩ := List.mem_map.1 (List.mem_of_find?_eq_some h)
  exact ⟨.nil, fun hname => absurd hname List.not_mem_nil⟩

/-- The invariant of the log holds in every container after every run. -/
theorem settled_run (containers : List (String × Option String)) (owner : String)
    (blueprint : Blueprint) (naming : Naming) (evaluation : Evaluation) (shelf : Shelf)
    (entries : List Entry) {id : String} {m : Member}
    (h : ((start containers owner blueprint naming evaluation shelf).run entries).member? id =
      some m) : m.container.Settled := by
  have hkeeps := run_keeps stepAlong_honours entries
    (start containers owner blueprint naming evaluation shelf)
  obtain ⟨new, hnew, honours⟩ := hkeeps.earlier h
  exact honours.settled (settled_start hnew)

/-- **Inner beans get new names through every run.**  A nested singleton is made under the first of
the names made from the proposed one that is not in use, whatever the separator is, and the name
stays granted also when it could not be made; the names a container has granted after a run are
pairwise distinct, and they stay the first ones it granted however the run goes on. -/
theorem innerNames_fresh :
    (∀ (depth : Nat) (evaluation : Evaluation) (r : Resolver Chain) (path : ArgPath)
        (proposed : String) (nested merged : Blueprint) (chain : Chain),
      r.collaborators = Chain.collaborators (Chain.create depth) evaluation →
      Chain.mergeBlueprint proposed nested r.blueprint = .ok merged → merged.isSingleton →
      ∃ k, chain.own.FirstFree r.naming proposed k ∧
        (r.resolveInner path proposed nested).run chain =
          ((r.createInner (r.naming.nth proposed k) merged).mapError
            (r.innerError path (r.naming.nth proposed k) merged.className)).run
            (chain.modifyOwn fun c => c.grant (r.naming.nth proposed k)) ∧
        chain.own.granted ++ [r.naming.nth proposed k] <+:
          ((r.resolveInner path proposed nested).run chain).2.own.granted) ∧
    (∀ containers owner blueprint naming evaluation shelf entries id m,
      ((start containers owner blueprint naming evaluation shelf).run entries).member? id =
        some m → m.container.granted.Nodup) ∧
    ∀ (s : Session) xs ys id m, (s.run xs).member? id = some m →
      ∃ m', (s.run (xs ++ ys)).member? id = some m' ∧
        m.container.granted <+: m'.container.granted := by
  refine ⟨?_, ?_, ?_⟩
  · intro depth evaluation r path proposed nested merged chain hr hmerge hs
    have hm := Chain.create_along workAlong_honours depth
    exact Chain.resolveInner_grants hm hr path proposed chain hmerge hs
  · intro containers owner blueprint naming evaluation shelf entries id m h
    exact (settled_run containers owner blueprint naming evaluation shelf entries h).nodup
  · intro s xs ys id m h
    obtain ⟨m', hm', honours⟩ := (run_keeps stepAlong_honours ys (s.run xs)).later h
    rw [run_append]
    exact ⟨m', hm', honours.granted⟩

/-- With an empty separator, an alias `x` and a dependency edge from `x1`, a nested singleton that
cannot be made leaves the name `x2` granted. -/
theorem innerNames_fresh_of_failing :
    let part : Blueprint := {
      id := 1, className := some "test.Failing", scope := .singleton, dependsOn := []
      synthetic := false, resource := none, args := [], properties := [] }
    let naming : Naming := { separator := "" }
    let chain : Chain := { own := {
      id := "main", aliases := Table.empty.insert "x" "y"
      dependents := (Edges.register {} "x1" "z").2 } }
    let r : Resolver Chain := ⟨Chain.collaborators (Chain.create 1), "owner", part, naming⟩
    let entries : List Entry := [
      { container := "main", step := .registerAlias "x" "y" },
      { container := "main", step := .registerDependent "x1" "z" },
      { container := "main", step := .resolve (.given (.holder "x" [] 0 part)) (.root "p") }]
    let s := start [("main", none)] "owner" part naming
    Chain.mergeBlueprint "x" part part = .ok part ∧ part.isSingleton ∧
      (∃ k, chain.own.FirstFree naming "x" k ∧ k = 2 ∧ [naming.nth "x" k] <+:
        ((r.resolveInner (.root "p") "x" part).run chain).2.own.granted) ∧
      ∃ m, (s.run entries).member? "main" = some m ∧ m.container.granted = ["x2"] ∧
        m.container.granted.Nodup ∧
        ∃ m', (s.run (entries ++ entries)).member? "main" = some m' ∧
          ["x2"] <+: m'.container.granted := by
  intro part naming chain r entries s
  refine ⟨rfl, rfl, ?_, ?_⟩
  · obtain ⟨k, hk, -, hgranted⟩ := innerNames_fresh.1 1 .placeholders r (.root "p") "x" part part
      chain rfl rfl rfl
    -- `x` is an alias and `x1` a source of edges, but `x2` is free
    have htwo : chain.own.isNameInUse (naming.nth "x" 2) = false := by decide +kernel
    have hle : k ≤ 2 := Nat.not_lt.1 fun h => by
      have hbusy := hk.busy 2 h
      rw [htwo] at hbusy
      cases hbusy
    have hfree := hk.free
    refine ⟨k, hk, ?_, hgranted⟩
    match k, hle with
    | 0, _ => exact absurd hfree (by decide +kernel)
    | 1, _ => exact absurd hfree (by decide +kernel)
    | 2, _ => rfl
  · have hrun : ((s.run entries).member? "main").map (fun m => m.container.granted) =
        some ["x2"] := by
      decide +kernel
    obtain ⟨m, hm, hx⟩ := Option.map_eq_some_iff.1 hrun
    refine ⟨m, hm, hx, innerNames_fresh.2.1 _ _ _ _ _ _ entries "main" m hm, ?_⟩
    rw [← hx]
    exact innerNames_fresh.2.2 s entries entries "main" m hm

end Wiring.Session
