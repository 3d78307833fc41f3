import Wiring.Proofs.Container.History
import Wiring.Proofs.Container.ObjectLeaves

/-!
# Containers — the edges of an object

An object is recorded as needing what it is made of: each bean it refers to here, each candidate of
an injection point that is known, and each object made for a nested blueprint, which is part of it
and needs the beans it depends on.  `Chain.Wires` says so of one leaf of the object's blueprint, from
the state where the leaf is come to to the state where it is done.  A leaf that stands in the
blueprint twice is come to twice: each time another object is made for a nested blueprint, and the
bean of a type or of an injection point is looked up anew.

**An object that is made has its leaves resolved one after the other, and has the edges of each**
(`create_wires`), at any depth of its collections.  The edges start at the names as they stand when
the making begins: no alias and no placeholder changes meanwhile, and a bean that is known stays
known.
-/

namespace Wiring

namespace Container

/-- The second container has the edges of the first. -/
structure KeepsEdges (c c' : Container) : Prop where
  dependents (name : String) : c.dependents.targets name <+: c'.dependents.targets name
  contained (name : String) : c.contained.targets name <+: c'.contained.targets name

theorem KeepsEdges.needs {c c' : Container} (h : c.KeepsEdges c') {a b : String}
    (edge : c.dependents.contains a b) : c'.dependents.contains a b := by
  rw [Edges.contains, List.contains_iff_mem] at edge ⊢
  exact (h.dependents a).subset edge

theorem KeepsEdges.trans {a b c : Container} (h : a.KeepsEdges b) (h' : b.KeepsEdges c) :
    a.KeepsEdges c :=
  ⟨fun name => (h.dependents name).trans (h'.dependents name),
    fun name => (h.contained name).trans (h'.contained name)⟩

theorem Grows.keepsEdges {c c' : Container} (h : c.Grows c') : c.KeepsEdges c' :=
  ⟨h.dependents, h.contained⟩

end Container

namespace Chain

/-- The work on a leaf of the blueprint `b` of the object `name` leads from `start` to `final`, and
the container `c` has the edges that the leaf asks for.  What the names stand for is told by the chain
`begun`. -/
def Wires (depth : Nat) (name : String) (b : Blueprint) (begun : Chain) (c : Container)
    (start final : Chain) : Raw → Prop
  | .reference ⟨.name text, false⟩ =>
    ∃ v, Evaluation.placeholders.evaluate begun.own.placeholders text = .ok v ∧
      c.dependents.contains (begun.own.canonical v.text) name
  | .reference ⟨.type ty, false⟩ =>
    ∃ found mid, (resolveNamedByType (create depth) ty).run start = (.ok found, mid) ∧
      Each Container.Continues mid final ∧
      c.dependents.contains (begun.own.canonical found.name) name
  | .dependency d =>
    ∃ selection mid, (resolveDependency (create depth) d name).run start = (.ok selection, mid) ∧
      Each Container.Continues mid final ∧
      ∀ candidate ∈ selection.candidates, begun.containsBean candidate →
        c.dependents.contains (begun.own.canonical candidate) name
  | .holder proposed _ _ nested => inner proposed nested
  | .nested _ nested => inner (({} : Naming).innerName nested.token) nested
  | _ => True
where
  /-- The object made for a nested blueprint is named and made on the way, and the container has its
  edges. -/
  inner (proposed : String) (nested : Blueprint) : Prop :=
    ∃ merged inner named ready node bean made, mergeBlueprint proposed nested b = .ok merged ∧
      ((objectResolver depth name b).innerName proposed merged).run start = (.ok inner, named) ∧
      Each Container.Continues named ready ∧
      create depth inner merged ready = (⟨node, .ok bean⟩, made) ∧
      Each Container.Continues made final ∧
      inner ∈ c.contained.targets name ∧
      c.dependents.contains (begun.own.canonical inner) name ∧
      ∀ d ∈ nested.dependsOn, c.dependents.contains (begun.own.canonical d) inner

/-- The leaf comes to the value, and has its edges. -/
def WiredLeaf (depth : Nat) (name : String) (b : Blueprint) (begun : Chain) (c : Container)
    (leaf : Raw) (v : Value) (start final : Chain) : Prop :=
  (objectResolver depth name b).Resolves leaf v start final ∧
    Wires depth name b begun c start final leaf

variable {depth : Nat} {name : String} {b : Blueprint}

/-! ### What is wired stays wired -/

theorem containsIn_of_grows : ∀ {ancestors ancestors' : List Container} {c c' : Container}
    (name : String), c.Grows c' → List.Forall₂ Container.Grows ancestors ancestors' →
      containsIn c' ancestors' name = containsIn c ancestors name
  | _, _, c, c', name, h, .nil => by
      rw [containsIn, containsIn, h.canonical, h.holds]
  | _, _, c, c', name, h, .cons hup hrest => by
      rw [containsIn, containsIn, h.canonical, h.holds, containsIn_of_grows _ hup hrest]

/-- What is known stays known, and what is not is not known later. -/
theorem containsBean_of_grows {chain chain' : Chain} (h : Each Container.Grows chain chain')
    (name : String) : chain'.containsBean name = chain.containsBean name :=
  containsIn_of_grows name h.own h.ancestors

section Mono

variable {begun start final : Chain} {c c' : Container}

/-- What is wired is wired in every container that has the edges. -/
theorem Wires.mono (hc : c.KeepsEdges c') : ∀ {leaf : Raw},
    Wires depth name b begun c start final leaf → Wires depth name b begun c' start final leaf
  | .reference ⟨.name _, false⟩, ⟨v, hv, edge⟩ => ⟨v, hv, hc.needs edge⟩
  | .reference ⟨.type _, false⟩, ⟨found, mid, hfound, hrest, edge⟩ =>
      ⟨found, mid, hfound, hrest, hc.needs edge⟩
  | .dependency _, ⟨selection, mid, hselection, hrest, edges⟩ =>
      ⟨selection, mid, hselection, hrest, fun candidate hmem hknown =>
        hc.needs (edges candidate hmem hknown)⟩
  | .holder _ _ _ _, h | .nested _ _, h => by
      obtain ⟨merged, inner, named, ready, node, bean, made, hmerge, hname, hready, hmade, hrest,
        part, edge, edges⟩ := h
      exact ⟨merged, inner, named, ready, node, bean, made, hmerge, hname, hready, hmade, hrest,
        (hc.contained name).subset part, hc.needs edge, fun d hd => hc.needs (edges d hd)⟩
  | .reference ⟨.name _, true⟩, _ | .reference ⟨.type _, true⟩, _ | .null, _ | .literal _, _
  | .value _, _ | .nameReference _, _ | .array _ _ _, _ | .list _, _ | .set _, _ | .map _, _
  | .properties _, _ => trivial

/-- The names stand for what they stood for before. -/
theorem Wires.since {before : Chain} (hb : Each Container.Continues before begun) {leaf : Raw}
    (h : Wires depth name b begun c start final leaf) :
    Wires depth name b before c start final leaf := by
  have hcanonical : begun.own.canonical = before.own.canonical := funext hb.own.canonical
  have hknown : begun.containsBean = before.containsBean :=
    funext (containsBean_of_grows (hb.imp fun h => h.toGrows))
  have hplaceholders : begun.own.placeholders = before.own.placeholders := hb.own.placeholders
  unfold Wires Wires.inner at h ⊢
  rwa [hcanonical, hknown, hplaceholders] at h

theorem WiredLeaf.mono (hc : c.KeepsEdges c') {leaf : Raw} {v : Value}
    (h : WiredLeaf depth name b begun c leaf v start final) :
    WiredLeaf depth name b begun c' leaf v start final :=
  ⟨h.1, h.2.mono hc⟩

end Mono

/-! ### The edges of a leaf -/

section Leaf

variable {start final : Chain}

/-- The edge that is recorded starts at the name the first name stands for. -/
theorem needs_registerDependent (c : Container) (dependency dependent : String) :
    (c.registerDependent dependency dependent).dependents.contains (c.canonical dependency)
      dependent :=
  (Edges.contains_register _ _ _ _ _).2 (.inr ⟨rfl, rfl⟩)

theorem mem_registerContained (c : Container) (inner owner : String) :
    inner ∈ (c.registerContained inner owner).contained.targets owner :=
  List.contains_iff_mem.1 ((Edges.contains_register c.contained owner inner owner inner).2
    (.inr ⟨rfl, rfl⟩))

theorem needs_registerContained (c : Container) (inner owner : String) :
    (c.registerContained inner owner).dependents.contains (c.canonical inner) owner :=
  needs_registerDependent { c with contained := (c.contained.register owner inner).2 } inner owner

theorem each_registerDependent (s : Chain) (a b : String) :
    Each Container.Continues s (s.modifyOwn fun c => c.registerDependent a b) :=
  along_modifyOwn (fun c => Container.workAlong_continues.registerDependent c a b) s

theorem continues_resolver (depth : Nat) (name : String) (b : Blueprint) :
    (objectResolver depth name b).GoesAlong (Each Container.Continues) :=
  objectResolver_goesAlong Container.workAlong_continues depth name b

/-- A bean that is referred to here is recorded as needed. -/
theorem lookUpHere_wires {ref : Reference} {bean : Managed} (here : ref.inParent = false)
    (h : ((objectResolver depth name b).lookUpHere ref).run start = (.ok bean, final)) :
    Wires depth name b start final.own start final (.reference ref) := by
  obtain ⟨found, mid, hfound, h⟩ := Action.ok_of_bind h
  have hmid := (Resolver.findHere_along (continues_resolver depth name b) ref).of_run hfound
  obtain rfl : mid.modifyOwn (fun c => c.registerDependent found.name name) = final :=
    congrArg Prod.snd h
  have edge := needs_registerDependent mid.own found.name name
  rw [hmid.own.canonical] at edge
  obtain ⟨target, inParent⟩ := ref
  obtain rfl : inParent = false := here
  unfold Resolver.findHere at hfound
  cases target with
  | name text =>
      obtain ⟨found, s, hname, hfound⟩ := Action.ok_of_bind hfound
      obtain ⟨rfl, v, hv, rfl⟩ := ok_of_evaluateName rfl hname
      obtain ⟨bean, after, -, hfound⟩ := Action.ok_of_bind hfound
      cases hfound
      exact ⟨v, hv, edge⟩
  | type ty => exact ⟨found, mid, hfound, each_registerDependent mid _ _, edge⟩

theorem run_registerCandidates (first : String) (names : List String) (s : Chain) :
    (objectResolver depth name b).registerCandidates (first :: names) s =
      (objectResolver depth name b).registerCandidates names
        (if s.containsBean first then s.modifyOwn fun c => c.registerDependent first name
          else s) := by
  rw [Resolver.registerCandidates, state_bind]
  change (if s.containsBean first then _ else _ : StateM Chain Unit) s = _
  split <;> rfl

/-- Each candidate that is known is recorded as needed. -/
theorem registerCandidates_needs : ∀ (names : List String) (s : Chain),
    ∀ candidate ∈ names, s.containsBean candidate →
      ((objectResolver depth name b).registerCandidates names s).2.own.dependents.contains
        (s.own.canonical candidate) name
  | [], _, _, hmem, _ => nomatch hmem
  | first :: names, s, candidate, hmem, known => by
      rw [run_registerCandidates]
      rcases List.mem_cons.1 hmem with rfl | hmem
      · rw [if_pos known]
        have hrest := Resolver.registerCandidates_along (continues_resolver depth name b) names
          (s.modifyOwn fun c => c.registerDependent candidate name)
        exact hrest.own.keepsEdges.needs (needs_registerDependent s.own candidate name)
      · -- the first candidate changes neither what is known nor what a name stands for
        split
        · have hfirst := each_registerDependent s first name
          have hneeds := registerCandidates_needs names
            (s.modifyOwn fun c => c.registerDependent first name) candidate hmem
          rw [containsBean_of_grows (hfirst.imp fun h => h.toGrows)] at hneeds
          exact hneeds known
        · exact registerCandidates_needs names s candidate hmem known

/-- **The candidates of an injection point that are known are recorded as needed.** -/
theorem resolveDependency_wires {d : Dependency} {v : Value}
    (h : ((objectResolver depth name b).resolveDependency d).run start = (.ok v, final)) :
    Wires depth name b start final.own start final (.dependency d) := by
  have hgoes := continues_resolver depth name b
  obtain ⟨selection, mid, hselection, h⟩ := Action.ok_of_bind h
  have hmid := (hgoes.resolveDependency d).of_run hselection
  have hafter := Resolver.registerCandidates_along hgoes (Ordered.ofList selection.candidates) mid
  obtain rfl : ((objectResolver depth name b).registerCandidates
    (Ordered.ofList selection.candidates) mid).2 = final := congrArg Prod.snd h
  refine ⟨selection, mid, hselection, hafter, fun candidate hmem known => ?_⟩
  rw [← hmid.own.canonical]
  refine registerCandidates_needs _ mid candidate (Ordered.mem_ofList.2 hmem) ?_
  rw [containsBean_of_grows (hmid.imp fun h => h.toGrows)]
  exact known

/-- The beans an inner bean depends on are recorded as needed by it. -/
theorem prepare_needs (inner : String) : ∀ (names : List String) {start final : Chain},
    ((objectResolver depth name b).prepare inner names).run start = (.ok (), final) →
      ∀ d ∈ names, final.own.dependents.contains (start.own.canonical d) inner
  | [], _, _, _, _, hmem => nomatch hmem
  | first :: names, start, final, h, d, hmem => by
      have hgoes := continues_resolver depth name b
      rw [Resolver.prepare] at h
      obtain ⟨⟨⟩, recorded, hrecorded, h⟩ := Action.ok_of_bind h
      obtain ⟨bean, mid, hbean, hrest⟩ := Action.ok_of_bind h
      have hmid := (hgoes.getByName first).of_run hbean
      have hfinal := (Resolver.prepare_along hgoes inner names).of_run hrest
      obtain rfl : start.modifyOwn (fun c => c.registerDependent first inner) = recorded :=
        congrArg Prod.snd hrecorded
      rcases List.mem_cons.1 hmem with rfl | hmem
      · exact (hmid.own.keepsEdges.trans hfinal.own.keepsEdges).needs
          (needs_registerDependent start.own d inner)
      · have hneeds := prepare_needs inner names hrest d hmem
        rw [hmid.own.canonical] at hneeds
        exact hneeds

theorem continues_innerName {proposed inner : String} {merged : Blueprint}
    (h : ((objectResolver depth name b).innerName proposed merged).run start =
      (.ok inner, final)) : Each Container.Continues start final := by
  unfold Resolver.innerName at h
  split at h
  · obtain ⟨k, -, hrun⟩ := run_freshName (r := objectResolver depth name b) rfl start proposed
    rw [hrun] at h
    obtain rfl : start.modifyOwn (fun c => c.grant (({} : Naming).nth proposed k)) = final :=
      congrArg Prod.snd h
    exact along_modifyOwn
      (fun c => Container.Continues.of_grows (Container.grows_grant c _) rfl) start
  · cases h
    exact refl_of _ start

/-- Making an inner bean records what it needs, and makes the object. -/
theorem makeInner_needs {inner : String} {merged : Blueprint} {v : Value}
    (h : ((objectResolver depth name b).makeInner inner merged).run start = (.ok v, final)) :
    ∃ ready node bean made, Each Container.Continues start ready ∧
      create depth inner merged ready = (⟨node, .ok bean⟩, made) ∧
      Each Container.Continues made final ∧
      ∀ d ∈ merged.dependsOn, final.own.dependents.contains (start.own.canonical d) inner := by
  have hgoes := continues_resolver depth name b
  obtain ⟨⟨⟩, ready, hprepared, hrest⟩ := Action.ok_of_bind h
  obtain ⟨bean, made, hcreate, hvalue⟩ := Action.ok_of_bind hrest
  obtain ⟨node, hmade⟩ := ok_of_createObject hcreate
  have hready := (Resolver.prepare_along hgoes inner merged.dependsOn).of_run hprepared
  have hafter := (hgoes.createObject inner merged).of_run hcreate
  have hfinal : Each Container.Continues made final := by
    cases bean with
    | factory factory =>
        have hrest := Action.rest_of_bind (fun product => Action.along_pure product.toValue)
          (hgoes.unwrapProduct hcreate)
        rwa [hvalue] at hrest
    | value _ => cases hvalue; exact refl_of _ _
    | null => cases hvalue; exact refl_of _ _
  refine ⟨ready, node, bean, made, hready, hmade, hfinal, fun d hd => ?_⟩
  exact (hafter.own.keepsEdges.trans hfinal.own.keepsEdges).needs
    (prepare_needs inner merged.dependsOn hprepared d hd)

/-- **The object made for a nested blueprint is recorded as part of the object**, which needs it,
and needs the beans it depends on. -/
theorem resolveInner_wires {path : ArgPath} {proposed : String} {nested : Blueprint} {v : Value}
    (h : ((objectResolver depth name b).resolveInner path proposed nested).run start =
      (.ok v, final)) :
    Wires.inner depth name b start final.own start final proposed nested := by
  have hgoes := continues_resolver depth name b
  obtain ⟨merged, unchanged, hmerged, hnext⟩ := Action.ok_of_bind h
  obtain ⟨hmerge, rfl⟩ := Action.ok_of_ofExcept (Action.ok_of_mapError hmerged)
  obtain ⟨inner, named, hname, hcreate⟩ := Action.ok_of_bind hnext
  have hnamed := continues_innerName hname
  obtain ⟨⟨⟩, recorded, hrecord, hmake⟩ := Action.ok_of_bind (Action.ok_of_mapError hcreate)
  obtain rfl : named.modifyOwn (fun c => c.registerContained inner name) = recorded :=
    congrArg Prod.snd hrecord
  have hrecorded : Each Container.Continues named
      (named.modifyOwn fun c => c.registerContained inner name) :=
    along_modifyOwn (fun c => Container.workAlong_continues.registerContained c inner name) named
  have hfinal := (Resolver.makeInner_along hgoes inner merged).of_run hmake
  obtain ⟨ready, node, bean, made, hready, hmade, hrest, hneeds⟩ := makeInner_needs hmake
  refine ⟨merged, inner, named, ready, node, bean, made, hmerge, hname,
    trans_of _ hrecorded hready, hmade, hrest, ?_, ?_, fun d hd => ?_⟩
  · exact (hfinal.own.contained name).subset (mem_registerContained named.own inner name)
  · rw [← hnamed.own.canonical]
    exact hfinal.own.keepsEdges.needs (needs_registerContained named.own inner name)
  · rw [← (trans_of (Each Container.Continues) hnamed hrecorded).own.canonical]
    exact hneeds d (merge_eq hmerge ▸ hd)

/-- A leaf that comes to a value has its edges then. -/
theorem leaf_wires {leaf : Raw} {v : Value}
    (h : (objectResolver depth name b).Resolves leaf v start final) :
    Wires depth name b start final.own start final leaf := by
  obtain ⟨path, node, h⟩ := h
  match leaf with
  | .reference ⟨.name _, false⟩ | .reference ⟨.type _, false⟩ =>
      obtain ⟨bean, s, hfollowed, hvalue⟩ := Action.ok_of_bind (Action.ok_of_leaving h)
      cases hvalue
      exact lookUpHere_wires rfl (Action.ok_of_mapError hfollowed)
  | .dependency d => exact resolveDependency_wires (Action.ok_of_leaving h)
  | .holder proposed _ _ nested => exact resolveInner_wires (Action.ok_of_leaving h)
  | .nested _ nested => exact resolveInner_wires (Action.ok_of_leaving h)
  | .reference ⟨.name _, true⟩ | .reference ⟨.type _, true⟩ | .null | .literal _ | .value _
  | .nameReference _ | .array _ _ _ | .list _ | .set _ | .map _ | .properties _ => exact trivial

end Leaf

/-! ### The edges of an object -/

/-- **An object that is made has its leaves resolved one after the other, and has the edges of
each**, at any depth of its collections. -/
theorem create_wires {node : Blueprint} {bean : Managed} {start final : Chain}
    (h : create (depth + 1) name b start = (⟨node, .ok bean⟩, final)) :
    ∃ vs, OneByOne (Each Container.Continues) (WiredLeaf depth name b start final.own) b.leaves vs
      start final := by
  obtain ⟨vs, leaves, -⟩ := create_leaves Container.workAlong_continues h
  refine ⟨vs, leaves.imp_within
    (fun resolves => resolves.along (continues_resolver depth name b))
    (fun hstart resolves hfinal => ⟨resolves, ?_⟩) (refl_of _ start) (refl_of _ final)⟩
  exact ((leaf_wires resolves).since hstart).mono hfinal.own.keepsEdges

end Chain

end Wiring
