import Wiring.Proofs.Container.Wires
import Wiring.Proofs.Resolver.Values

/-!
# Containers — names that are known

Whether a name is known (`Chain.containsBean`) and what a look-up of it comes to are found by going
up the chain, each container giving the name the one it stands for there.  The two go the same way:
**a look-up says that there is no such bean, with no object begun, exactly where the name is not
known** (`unknown_iff_no_such_bean`).  It tells the name as the topmost container was asked for it
(`Chain.renamed`) and leaves the containers as they were.  A look-up of a known name fails only
after an object was begun (`Chain.Begins`).
-/

namespace Wiring

/-- What a container does not hold has neither a bean nor a definition. -/
theorem Container.absent_of_holds {c : Container} {name : String} (h : c.holds name = false) :
    c.singletons.get? name = none ∧ c.definitions.get? name = none := by
  simp only [holds, Table.contains, Bool.or_eq_false_iff, Option.isSome_eq_false_iff,
    Option.isNone_iff_eq_none] at h
  exact ⟨h.2, h.1⟩

@[simp]
theorem Container.created_note (c : Container) (e : Event) : (c.note e).created = c.created := rfl

@[simp]
theorem Container.created_learn (c : Container) (name : String) (left : Blueprint) :
    (c.learn name left).created = c.created := by
  rw [learn_eq]
  rfl

@[simp]
theorem Container.created_conclude (c : Container) (name : String) (b : Blueprint)
    (bean : Option Managed) : (c.conclude name b bean).created = c.created := by
  rw [conclude_eq]
  rfl

namespace Chain

/-- The containers of a chain, the nearest first. -/
def containers (chain : Chain) : List Container :=
  chain.own :: chain.ancestors

/-- The name as the topmost container is asked for it, each container having given it the name it
stands for there. -/
def renamed (chain : Chain) (name : String) : String :=
  chain.containers.foldl (fun name c => c.canonical name) name

/-- The names of the objects that were begun, container by container. -/
def logs (chain : Chain) : List (List String) :=
  chain.containers.map Container.created

/-- A container has begun an object on the way from the first chain to the second. -/
def Begins (chain chain' : Chain) : Prop :=
  ∃ (i : Nat) (log log' : List String) (name : String),
    chain.logs[i]? = some log ∧ chain'.logs[i]? = some log' ∧ log ++ [name] <+: log'

variable {depth : Nat} {chain chain' : Chain} {name : String} {b : Blueprint}

/-! ### Objects that are begun -/

theorem Begins.logs_ne (h : chain.Begins chain') : chain'.logs ≠ chain.logs := by
  obtain ⟨i, log, log', name, hlog, hlog', begun⟩ := h
  intro same
  rw [same, hlog] at hlog'
  cases hlog'
  have hlength := begun.length_le
  simp only [List.length_append, List.length_singleton] at hlength
  omega

/-- What the own container begins, the chain begins. -/
theorem begins_own (h : chain.own.created ++ [name] <+: chain'.own.created) :
    chain.Begins chain' :=
  ⟨0, _, _, name, rfl, rfl, h⟩

/-- What the containers above begin, the chain begins. -/
theorem Begins.above {own own' up up' : Container} {rest rest' : List Container}
    (h : Begins ⟨up, rest⟩ ⟨up', rest'⟩) : Begins ⟨own, up :: rest⟩ ⟨own', up' :: rest'⟩ := by
  obtain ⟨i, h⟩ := h
  exact ⟨i + 1, h⟩

/-- The making of an object that has an outcome was begun. -/
theorem create_begins (finished : (create depth name b chain).1.outcome ≠ .error .exhausted) :
    chain.own.created ++ [name] <+: (create depth name b chain).2.own.created := by
  cases depth with
  | zero => exact absurd rfl finished
  | succ depth =>
      have begun : (chain.beginning name b).own.created = chain.own.created ++ [name] := by
        simp [beginning, modifyOwn, Container.created]
      rw [← begun]
      have grows := begun_along Container.workAlong_grows
        (create_along Container.workAlong_grows depth) name b chain
      exact grows.own.creations.map _

@[simp]
theorem created_unwrapProduct (factory : Value) (name : String) (postProcess : Bool) :
    ((unwrapProduct factory name postProcess).run chain).2.own.created = chain.own.created := by
  rw [unwrapProduct_state]
  rfl

/-- The making of a definition's bean that has an outcome was begun, whatever comes of it. -/
theorem makeBean_begins
    (finished : ((makeBean (create depth) name b).run chain).1 ≠ .error .exhausted) :
    chain.own.created ++ [name] <+: ((makeBean (create depth) name b).run chain).2.own.created := by
  have made : (makeDefined (create depth) name b).run chain =
      ((create depth name b chain).1.outcome, (create depth name b chain).2.modifyOwn fun c =>
        c.learn name (create depth name b chain).1.node) := rfl
  rw [makeBean, Action.run_bind, made] at finished ⊢
  cases outcome : (create depth name b chain).1.outcome with
  | error stop =>
      rw [outcome] at finished
      have begun := create_begins fun h => finished (by rw [← h, outcome])
      simpa [modifyOwn] using begun
  | ok bean =>
      have finished : (create depth name b chain).1.outcome ≠ .error .exhausted := by
        simp [outcome]
      have begun := create_begins finished
      cases bean with
      | factory factory => simpa [modifyOwn] using begun
      | value _ | null => exact (Container.created_learn _ name _).symm ▸ begun

/-- A bean that is made of its definition, and one that cannot be made, is begun. -/
theorem realize_begins
    (finished : ((realize (create depth) name b).run chain).1 ≠ .error .exhausted) :
    chain.Begins ((realize (create depth) name b).run chain).2 := by
  rw [run_realize] at finished ⊢
  have begun := makeBean_begins finished
  refine begins_own (?_ : chain.own.created ++ [name] <+: _)
  simpa [modifyOwn] using begun

/-! ### Look-ups by name -/

/-- A look-up of a name that is not known finds no bean, and changes nothing. -/
theorem findByName_unknown (make : Maker) : ∀ (own : Container) (ancestors : List Container)
    (name : String), containsIn own ancestors name = false →
      (findByName make ancestors.length name).run ⟨own, ancestors⟩ =
        (.error (.error (.noSuchBean (Chain.renamed ⟨own, ancestors⟩ name))), ⟨own, ancestors⟩)
  | own, [], name, unknown => by
      obtain ⟨absent, undefined⟩ := Container.absent_of_holds unknown
      exact findByName_absent absent undefined
  | own, up :: rest, name, unknown => by
      obtain ⟨notHere, above⟩ := Bool.or_eq_false_iff.1 unknown
      obtain ⟨absent, undefined⟩ := Container.absent_of_holds notHere
      have lookup := findByName_unknown make up rest (own.canonical name) above
      rw [List.length_cons, findByName_above rest.length absent undefined,
        run_inParent_cons _ _ rfl, lookup]
      rfl

/-- A look-up of a known name fails only after an object was begun. -/
theorem findByName_known : ∀ (own : Container) (ancestors : List Container) (name : String),
    containsIn own ancestors name → ∀ e,
      ((findByName (create depth) ancestors.length name).run ⟨own, ancestors⟩).1 =
          .error (.error e) →
        Begins ⟨own, ancestors⟩
          ((findByName (create depth) ancestors.length name).run ⟨own, ancestors⟩).2
  | own, ancestors, name, known, e, failed => by
      cases made : own.singletons.get? (own.canonical name) with
      | some bean =>
          rw [findByName_made _ made] at failed
          cases failed
      | none =>
          cases defined : own.definitions.get? (own.canonical name) with
          | some b =>
              rw [findByName_defined _ made defined] at failed ⊢
              exact realize_begins (by rw [failed]; exact nofun)
          | none =>
              have notHere : own.holds (own.canonical name) = false := by
                simp [Container.holds, Table.contains, made, defined]
              cases ancestors with
              | nil => rw [containsIn, notHere] at known; cases known
              | cons up rest =>
                  rw [containsIn, notHere, Bool.false_or] at known
                  rw [List.length_cons, findByName_above rest.length made defined,
                    run_inParent_cons _ _ rfl] at failed ⊢
                  exact (findByName_known up rest _ known e failed).above

/-- A name that a reference to a bean's name is resolved to is known. -/
theorem resolveName_known {r : Resolver Chain} {make : Maker} {evaluation : Evaluation}
    (hr : r.collaborators = collaborators make evaluation) {path : ArgPath} {text : String}
    {v : Value} (h : (r.resolveName path text).run chain = (.ok v, chain')) :
    ∃ found, v = .string found ∧ chain'.containsBean found := by
  obtain ⟨found, evaluated, -, h⟩ := Action.ok_of_bind h
  rw [Action.run_bind_lift, hr] at h
  change (if evaluated.containsBean found then pure (.string found) else
    Action.fail (.invalidReference (r.site path) found) : Action Chain Value).run evaluated = _ at h
  split at h
  next known =>
    cases h
    exact ⟨found, rfl, known⟩
  next => cases h

/-- **A look-up says that there is no such bean, with no object begun, exactly where the name is
not known.**  It tells the name as the topmost container was asked for it, and changes nothing.  A
look-up of a known name fails only after an object was begun; and a name that a reference to a
bean's name is resolved to is known from then on. -/
theorem unknown_iff_no_such_bean (depth : Nat) :
    (∀ (chain : Chain) (name : String),
      (chain.containsBean name = false ↔
        (∃ missing, ((getByName (create depth) name).run chain).1 =
          .error (.error (.noSuchBean missing))) ∧
        ((getByName (create depth) name).run chain).2.logs = chain.logs) ∧
      (chain.containsBean name = false →
        (getByName (create depth) name).run chain =
          (.error (.error (.noSuchBean (chain.renamed name))), chain)) ∧
      (chain.containsBean name → ∀ e,
        ((getByName (create depth) name).run chain).1 = .error (.error e) →
          chain.Begins ((getByName (create depth) name).run chain).2)) ∧
    ∀ (r : Resolver Chain) (make : Maker) (evaluation : Evaluation),
      r.collaborators = collaborators make evaluation →
      ∀ (path : ArgPath) (text : String) (node : Raw) (v : Value) (s s' : Chain),
        r.resolve path (.nameReference text) s = (⟨node, .ok v⟩, s') →
        ∃ found, v = .string found ∧ ∀ later, Each Container.Grows s' later → ∀ e,
          ((getByName (create depth) found).run later).1 = .error (.error e) →
            later.Begins ((getByName (create depth) found).run later).2 := by
  have known (chain : Chain) (name : String) (h : chain.containsBean name) (e : Error)
      (failed : ((getByName (create depth) name).run chain).1 = .error (.error e)) :
      chain.Begins ((getByName (create depth) name).run chain).2 :=
    findByName_known chain.own chain.ancestors name h e failed
  have unknown (chain : Chain) (name : String) (h : chain.containsBean name = false) :
      (getByName (create depth) name).run chain =
        (.error (.error (.noSuchBean (chain.renamed name))), chain) :=
    findByName_unknown (create depth) chain.own chain.ancestors name h
  refine ⟨fun chain name => ⟨⟨fun h => ?_, fun ⟨⟨missing, failed⟩, logs⟩ => ?_⟩,
    unknown chain name, known chain name⟩, ?_⟩
  · rw [unknown chain name h]
    exact ⟨⟨_, rfl⟩, rfl⟩
  · refine Bool.eq_false_iff.2 fun h => ?_
    exact (known chain name h _ failed).logs_ne logs
  · intro r make evaluation hr path text node v s s' h
    obtain ⟨found, rfl, accepted⟩ := resolveName_known hr (Action.ok_of_leaving h)
    refine ⟨found, rfl, fun later grows e failed => known later found ?_ e failed⟩
    rwa [containsBean_of_grows grows]

/-- A name that goes by aliases to a definition above whose object cannot be made, and one that
leads nowhere. -/
theorem unknown_iff_no_such_bean_of_aliases :
    let failing : Blueprint := {
      id := 1, className := some failingClass, scope := .singleton, dependsOn := []
      synthetic := false, resource := none, args := [], properties := [] }
    let top := ((({ id := "top" } : Container).registerBlueprint "svc" failing).registerAlias
      "service" "svc").registerAlias "gone" "lost"
    let chain : Chain := ⟨({ id := "main" } : Container).registerAlias "s" "service", [top]⟩
    let r : Resolver Chain :=
      { collaborators := collaborators (create 2), bean := "owner", blueprint := failing }
    let accepted := r.resolve (.root "x") (.nameReference "s") chain
    chain.containsBean "gone" = false ∧
      (getByName (create 2) "gone").run chain = (.error (.error (.noSuchBean "lost")), chain) ∧
      chain.containsBean "s" ∧
      ((getByName (create 2) "s").run chain).1 =
        .error (.error (.beanCreation "svc" "constructor threw")) ∧
      chain.Begins ((getByName (create 2) "s").run chain).2 ∧
      accepted.1.outcome = .ok (.string "s") ∧
      accepted.2.Begins ((getByName (create 2) "s").run accepted.2).2 := by
  intro failing top chain r accepted
  have gone : chain.containsBean "gone" = false := by decide +kernel
  have known : chain.containsBean "s" := by decide +kernel
  have failed : ((getByName (create 2) "s").run chain).1 =
      .error (.error (.beanCreation "svc" "constructor threw")) :=
    Stop.eq_of_error? (by decide +kernel)
  have failedLater : ((getByName (create 2) "s").run accepted.2).1 =
      .error (.error (.beanCreation "svc" "constructor threw")) :=
    Stop.eq_of_error? (by decide +kernel)
  have name : accepted.1.outcome.toOption.bind Value.string? = some "s" := by decide +kernel
  obtain ⟨unknown, begins⟩ := unknown_iff_no_such_bean 2
  refine ⟨gone, (unknown chain "gone").2.1 gone, known, failed,
    (unknown chain "s").2.2 known _ failed, ?_⟩
  cases ok : accepted.1.outcome with
  | error stop => rw [ok] at name; cases name
  | ok v =>
      have resolved : accepted = (⟨accepted.1.node, .ok v⟩, accepted.2) :=
        Prod.ext (congrArg (Resolved.mk accepted.1.node) ok) rfl
      obtain ⟨found, rfl, later⟩ := begins r _ _ rfl _ _ _ _ _ _ resolved
      rw [ok] at name
      obtain rfl : found = "s" := Option.some.inj name
      exact ⟨rfl, later _ (refl_of _ _) _ failedLater⟩

end Chain

end Wiring
