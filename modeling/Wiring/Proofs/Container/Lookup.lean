import Wiring.Container.Lookup

/-!
# Containers — the cases of a look-up

A name is looked up under the name it stands for here.  Its bean is handed out if there is one
(`findByName_made`), or else made of the name's definition (`findByName_defined`, `run_realize`), or
else looked for above (`findByName_above`, `findByName_absent`).

A type is looked up here first, and what comes of that is the answer (`findByType_here`) unless it
is the error that no bean has a type, of whatever type it says so: then the containers above are
asked (`findByType_above`, `findByType_missing`).
-/

namespace Wiring.Chain

variable {make : Maker} {chain : Chain} {name : String}

/-! ### By name -/

theorem findByName_made {bean : Managed} (height : Nat)
    (made : chain.own.singletons.get? (chain.own.canonical name) = some bean) :
    (findByName make height name).run chain =
      (.ok bean, chain.modifyOwn fun c => c.note (.found (c.canonical name) bean)) := by
  unfold findByName
  rw [Action.run_get_bind]
  simp only [made]
  rfl

theorem findByName_defined {b : Blueprint} (height : Nat)
    (absent : chain.own.singletons.get? (chain.own.canonical name) = none)
    (defined : chain.own.definitions.get? (chain.own.canonical name) = some b) :
    (findByName make height name).run chain =
      (realize make (chain.own.canonical name) b).run chain := by
  unfold findByName
  rw [Action.run_get_bind]
  simp only [absent, defined]

/-- The making of a bean is kept note of, when it begins and when it ends. -/
theorem run_realize (b : Blueprint) :
    (realize make name b).run chain =
      (((makeBean make name b).run (chain.modifyOwn fun c => c.note (.began name))).1,
        ((makeBean make name b).run (chain.modifyOwn fun c => c.note (.began name))).2.modifyOwn
          fun c => c.conclude name b
            ((makeBean make name b).run
              (chain.modifyOwn fun c => c.note (.began name))).1.toOption) := rfl

theorem findByName_absent
    (absent : chain.own.singletons.get? (chain.own.canonical name) = none)
    (undefined : chain.own.definitions.get? (chain.own.canonical name) = none) :
    (findByName make 0 name).run chain =
      (.error (.error (.noSuchBean (chain.own.canonical name))), chain) := by
  unfold findByName
  rw [Action.run_get_bind]
  simp only [absent, undefined]
  rfl

theorem findByName_above (height : Nat)
    (absent : chain.own.singletons.get? (chain.own.canonical name) = none)
    (undefined : chain.own.definitions.get? (chain.own.canonical name) = none) :
    (findByName make (height + 1) name).run chain =
      (inParent (Action.fail (.noSuchBean (chain.own.canonical name)))
        (findByName make height (chain.own.canonical name))).run chain := by
  rw [findByName, Action.run_get_bind]
  simp only [absent, undefined]

/-! ### The containers above -/

theorem run_inParent_nil {α : Type} (orElse x : Action Chain α) (top : chain.ancestors = []) :
    (inParent orElse x).run chain = orElse.run chain := by
  obtain ⟨own, ancestors⟩ := chain
  cases top
  rfl

theorem run_inParent_cons {α : Type} (orElse x : Action Chain α) {up : Container}
    {rest : List Container} (above : chain.ancestors = up :: rest) :
    (inParent orElse x).run chain =
      ((x.run ⟨up, rest⟩).1,
        ⟨chain.own, (x.run ⟨up, rest⟩).2.own :: (x.run ⟨up, rest⟩).2.ancestors⟩) := by
  obtain ⟨own, ancestors⟩ := chain
  cases above
  rfl

/-! ### By type -/

variable {ty : Ty}

theorem findByType_here (height : Nat)
    (settled : ∀ missing, ((resolveNamedByType make ty).run chain).1 ≠
      .error (.error (.noSuchBeanOfType missing))) :
    (findByType make height ty).run chain =
      (((resolveNamedByType make ty).run chain).1.map NamedBean.bean,
        ((resolveNamedByType make ty).run chain).2) := by
  rw [findByType, ExceptT.run_mk]
  split
  next missing s h => exact absurd (congrArg Prod.fst h) (settled missing)
  next h => rw [h]; rfl
  next h => rw [h]; rfl

theorem findByType_missing {missing : Ty} {s : Chain}
    (h : (resolveNamedByType make ty).run chain =
      (.error (.error (.noSuchBeanOfType missing)), s)) :
    (findByType make 0 ty).run chain = (.error (.error (.noSuchBeanOfType missing)), s) := by
  rw [findByType, ExceptT.run_mk, h]

theorem findByType_above {missing : Ty} {s : Chain} (height : Nat)
    (h : (resolveNamedByType make ty).run chain =
      (.error (.error (.noSuchBeanOfType missing)), s)) :
    (findByType make (height + 1) ty).run chain =
      (inParent (Action.fail (.noSuchBeanOfType missing)) (findByType make height ty)).run s := by
  rw [findByType, ExceptT.run_mk, h]

end Wiring.Chain
