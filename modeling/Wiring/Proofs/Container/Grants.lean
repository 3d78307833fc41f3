import Wiring.Proofs.Container.Along

/-!
# Containers — granted names

A container keeps a log of the names it found free for inner beans.  `Container.Settled` is the
invariant of the log: no name is granted twice, and each granted name is needed by a bean, so it
stays in use.  Between the grant of a name and the record of its owner the invariant does not hold;
no look-up and no making of an object comes between the two (`settled_claim`).

**A nested singleton gets the first name that is not in use, and keeps it also when it could not be
made** (`resolveInner_grants`).
-/

namespace Wiring

namespace Container

/-- No name was granted twice, and a granted name is needed by a bean. -/
structure Settled (c : Container) : Prop where
  nodup : c.granted.Nodup
  needed {name : String} (h : name ∈ c.granted) : c.dependents.hasSource name

/-- The container is the same, its log of granted names is extended, and the invariant of the log
is kept. -/
structure Honours (c c' : Container) : Prop where
  id : c'.id = c.id
  granted : c.granted <+: c'.granted
  settled (h : c.Settled) : c'.Settled

namespace Honours

variable {a b c : Container}

theorem refl (c : Container) : c.Honours c := ⟨rfl, List.prefix_refl _, fun h => h⟩

theorem trans (h : a.Honours b) (h' : b.Honours c) : a.Honours c :=
  ⟨h'.id.trans h.id, h.granted.trans h'.granted, fun ha => h'.settled (h.settled ha)⟩

instance : IsPreorder Container Honours where
  refl := Honours.refl
  trans _ _ _ := Honours.trans

/-- A change of neither the log nor the edges. -/
theorem of_eq (id : b.id = a.id) (granted : b.granted = a.granted)
    (dependents : b.dependents = a.dependents) : a.Honours b where
  id := id
  granted := granted ▸ List.prefix_refl _
  settled h := ⟨granted ▸ h.nodup, fun hname => dependents ▸ h.needed (granted ▸ hname)⟩

end Honours

/-! ### The changes of a container keep the invariant -/

theorem honours_registerDependent (c : Container) (x y : String) :
    c.Honours (c.registerDependent x y) where
  id := rfl
  granted := List.prefix_refl _
  settled h := ⟨h.nodup, fun hname =>
    Edges.hasSource_of_prefix (Edges.targets_prefix_register _ _ _ _) (h.needed hname)⟩

theorem honours_registerContained (c : Container) (inner owner : String) :
    c.Honours (c.registerContained inner owner) := by
  have h : c.Honours { c with contained := (c.contained.register owner inner).2 } :=
    .of_eq rfl rfl rfl
  exact h.trans (honours_registerDependent _ inner owner)

theorem canonical_of_free {c : Container} {name : String} (free : c.isNameInUse name = false) :
    c.canonical name = name := by
  simp only [isNameInUse, Bool.or_eq_false_iff] at free
  have halias : c.aliases.get? name = none := by
    simpa [Table.contains] using free.1.1.1
  rw [canonical, halias]
  rfl

theorem not_granted_of_free {c : Container} (h : c.Settled) {name : String}
    (free : c.isNameInUse name = false) : name ∉ c.granted := by
  intro hname
  simp only [isNameInUse, Bool.or_eq_false_iff] at free
  rw [h.needed hname] at free
  exact Bool.false_ne_true free.2.symm

/-- A free name is granted for the first time.  It is no alias, so the edge to its owner starts at
the very name. -/
theorem settled_claim {c : Container} (h : c.Settled) {name : String} (owner : String)
    (free : c.isNameInUse name = false) :
    ((c.grant name).registerContained name owner).Settled where
  nodup := by
    refine List.nodup_append.2 ⟨h.nodup, List.nodup_cons.2 ⟨List.not_mem_nil, .nil⟩, ?_⟩
    rintro a ha b hb rfl
    rw [List.mem_singleton.1 hb] at ha
    exact not_granted_of_free h free ha
  needed {granted} hgranted := by
    change (c.dependents.register (c.canonical name) owner).2.hasSource granted
    -- from an alias the edge would start at the name it stands for
    rw [canonical_of_free free]
    rcases List.mem_append.1 hgranted with hold | hnew
    · exact Edges.hasSource_of_prefix (Edges.targets_prefix_register _ _ _ _) (h.needed hold)
    · rw [List.mem_singleton.1 hnew]
      exact Edges.hasSource_register _ _ _

theorem honours_note (c : Container) (e : Event) : c.Honours (c.note e) :=
  .of_eq rfl rfl rfl

theorem honours_keep (c : Container) (name : String) (b : Blueprint) (bean : Managed) :
    c.Honours (c.keep name b bean) := by
  rw [keep]
  split
  · exact .of_eq rfl rfl rfl
  · exact .refl c

theorem honours_conclude (c : Container) (name : String) (b : Blueprint) (bean : Option Managed) :
    c.Honours (c.conclude name b bean) := by
  cases bean with
  | none => exact honours_note c _
  | some bean => exact (honours_keep c name b bean).trans (honours_note _ _)

theorem workAlong_honours : WorkAlong Honours where
  registerDependent := honours_registerDependent
  registerContained := honours_registerContained
  claim c name owner free := ⟨rfl, List.prefix_append _ _, fun h => settled_claim h owner free⟩
  begin _ _ := .of_eq rfl rfl rfl
  newObject _ _ := .of_eq rfl rfl rfl
  unwrap _ _ _ := .of_eq rfl rfl rfl
  learn c name left := by
    rw [learn_eq]
    exact .of_eq rfl rfl rfl
  found c _ _ _ := honours_note c _
  conclude h _ _ _ := (honours_note _ _).trans (h.trans (honours_conclude _ _ _ _))
  made {_ _ _ _ _ _ _ c} _ noted := noted ▸ honours_note c _

end Container

namespace Chain

variable {make : Maker} {evaluation : Evaluation} {r : Resolver Chain}

/-- The object of a nested singleton is made under the first name that is not in use. -/
theorem run_resolveInner (hr : r.collaborators = collaborators make evaluation) (path : ArgPath)
    (proposed : String) {nested merged : Blueprint} (chain : Chain)
    (hmerge : mergeBlueprint proposed nested r.blueprint = .ok merged) (hs : merged.isSingleton) :
    ∃ k, chain.own.FirstFree r.naming proposed k ∧
      (r.resolveInner path proposed nested).run chain =
        ((r.createInner (r.naming.nth proposed k) merged).mapError
          (r.innerError path (r.naming.nth proposed k) merged.className)).run
          (chain.modifyOwn fun c => c.grant (r.naming.nth proposed k)) := by
  obtain ⟨k, hk, hfound⟩ := run_freshName hr chain proposed
  refine ⟨k, hk, ?_⟩
  have hmerged : ((r.collaborators.mergeBlueprint proposed nested r.blueprint).mapError
      (r.innerError path proposed none)).run chain = (.ok merged, chain) := by
    rw [hr]
    change ((Action.ofExcept (mergeBlueprint proposed nested r.blueprint)).mapError _).run chain = _
    rw [hmerge]
    rfl
  rw [Resolver.resolveInner, Action.run_bind, hmerged]
  dsimp only
  rw [Resolver.innerName, if_pos hs, Action.run_bind, hfound]

/-- **A nested singleton gets the first name that is not in use, and keeps it** also when it could
not be made. -/
theorem resolveInner_grants (hm : MakesAlong Container.Honours make)
    (hr : r.collaborators = collaborators make evaluation) (path : ArgPath) (proposed : String)
    {nested merged : Blueprint} (chain : Chain)
    (hmerge : mergeBlueprint proposed nested r.blueprint = .ok merged) (hs : merged.isSingleton) :
    ∃ k, chain.own.FirstFree r.naming proposed k ∧
      (r.resolveInner path proposed nested).run chain =
        ((r.createInner (r.naming.nth proposed k) merged).mapError
          (r.innerError path (r.naming.nth proposed k) merged.className)).run
          (chain.modifyOwn fun c => c.grant (r.naming.nth proposed k)) ∧
      chain.own.granted ++ [r.naming.nth proposed k] <+:
        ((r.resolveInner path proposed nested).run chain).2.own.granted := by
  obtain ⟨k, hk, hrun⟩ := run_resolveInner hr path proposed chain hmerge hs
  refine ⟨k, hk, hrun, ?_⟩
  have h : r.GoesAlong (Each Container.Honours) := goesAlong Container.workAlong_honours hm hr
  have hcreate : Along (Each Container.Honours)
      ((r.createInner (r.naming.nth proposed k) merged).mapError
        (r.innerError path (r.naming.nth proposed k) merged.className)).run :=
    Action.along_mapError (Resolver.createInner_along h _ merged)
  rw [hrun]
  exact (hcreate (chain.modifyOwn fun c => c.grant (r.naming.nth proposed k))).own.granted

end Chain

end Wiring
