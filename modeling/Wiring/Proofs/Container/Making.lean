import Wiring.Container.Create
import Wiring.Proofs.Resolver.Values

/-!
# Containers — the cases of making an object

The making of an object is begun, and then it is refused (`run_create_failing`), or stops with its
values (`run_create_stopped`), or gives an object (`run_create_made`).  The values are those of its
arguments and then those of its properties (`valueOf_instantiate`).

**What is made of a blueprint is an object of its class, managed as the class asks for**
(`create_makes`).  The bean of a definition is that, or the product of a factory (`makeBean_gives`).
A nested blueprint is merged by a change of its scope at most (`merge_eq`).
-/

namespace Wiring

/-- The bean is an object of the blueprint's class, managed as the class asks for. -/
def BlueprintOf.Makes (b : Blueprint) (bean : Managed) : Prop :=
  ∃ o : Object, o.typeName = b.className.getD "object" ∧
    bean = Chain.manage (b.className.getD "") (.object o)

/-- The bean is what is made of the blueprint, unless the blueprint is that of a factory, which may
have any product. -/
def BlueprintOf.Gives (b : Blueprint) (bean : Managed) : Prop :=
  b.className = some Chain.factoryClass ∨ b.Makes bean

theorem BlueprintOf.isSingleton_iff {b : Blueprint} : b.isSingleton ↔ b.scope = .singleton := by
  rw [isSingleton]
  cases b.scope <;> simp [Scope.isSingleton]

open Wiring.Action (valueOf)

namespace Chain

variable {depth : Nat} {chain mid : Chain} {name : String} {b node : Blueprint}

/-- What resolves the values of an object. -/
abbrev objectResolver (depth : Nat) (name : String) (b : Blueprint) : Resolver Chain where
  collaborators := collaborators (create depth)
  bean := name
  blueprint := b

/-- The chain when the making of an object is begun. -/
def beginning (name : String) (b : Blueprint) (chain : Chain) : Chain :=
  chain.modifyOwn fun c => { c with creations := c.creations ++ [⟨name, b⟩] }

theorem run_create_failing (failing : b.className.getD "" = failingClass) :
    create (depth + 1) name b chain =
      (⟨b, .error (.error (.beanCreation name "constructor threw"))⟩, chain.beginning name b) := by
  rw [create, build]
  simp only [failing, if_true]
  rfl

/-- An object whose class can be made is made of its values. -/
theorem run_create_sound (sound : b.className.getD "" ≠ failingClass) :
    create (depth + 1) name b chain =
      match instantiate (collaborators (create depth)) name b (chain.beginning name b) with
      | (⟨node, .error stop⟩, mid) => (⟨node, .error stop⟩, mid)
      | (⟨node, .ok v⟩, mid) =>
        (⟨node, .ok (manage (b.className.getD "") v)⟩,
          mid.modifyOwn fun c => c.note (.made name b)) := by
  rw [create, build]
  simp only [sound, if_false]
  rw [modify_bind, state_bind, ← beginning]
  rcases instantiate (collaborators (create depth)) name b (chain.beginning name b) with
    ⟨⟨node, stop | v⟩, mid⟩ <;> rfl

theorem run_create_stopped (sound : b.className.getD "" ≠ failingClass) {stop : Stop}
    (stopped : instantiate (collaborators (create depth)) name b (chain.beginning name b) =
      (⟨node, .error stop⟩, mid)) :
    create (depth + 1) name b chain = (⟨node, .error stop⟩, mid) := by
  rw [run_create_sound sound, stopped]

theorem run_create_made (sound : b.className.getD "" ≠ failingClass) {v : Value}
    (made : instantiate (collaborators (create depth)) name b (chain.beginning name b) =
      (⟨node, .ok v⟩, mid)) :
    create (depth + 1) name b chain =
      (⟨node, .ok (manage (b.className.getD "") v)⟩,
        mid.modifyOwn fun c => c.note (.made name b)) := by
  rw [run_create_sound sound, made]

/-! ### The values of an object -/

theorem valueOf_resolveArgs_cons (r : Resolver Chain) (i : Nat) (raw : Raw) (raws : List Raw) :
    valueOf (resolveArgs r i (raw :: raws)) = (do
      let v ← valueOf (r.resolve (.root (argName i)) raw)
      return v :: (← valueOf (resolveArgs r (i + 1) raws))) := by
  rw [resolveArgs]
  refine Action.valueOf_bind (fun first v => ?_) fun first stop s => rfl
  exact Action.valueOf_map _ (first :: ·) (v :: ·)

theorem valueOf_resolveProperties_cons (r : Resolver Chain) (name : String) (raw : Raw)
    (ps : List (String × Raw)) :
    valueOf (resolveProperties r ((name, raw) :: ps)) = (do
      let v ← valueOf (r.resolve (.root name) raw)
      return (name, v) :: (← valueOf (resolveProperties r ps))) := by
  rw [resolveProperties]
  refine Action.valueOf_bind (fun first v => ?_) fun first stop s => rfl
  exact Action.valueOf_map _ ((name, first) :: ·) ((name, v) :: ·)

/-- The values of an object: first those of the arguments, then those of the properties. -/
theorem valueOf_instantiate (c : Collaborators Chain) (name : String) (b : Blueprint) :
    valueOf (instantiate c name b) = (do
      let args ← valueOf (resolveArgs ⟨c, name, b, {}⟩ 0 b.args)
      let properties ← valueOf (resolveProperties ⟨c, name, b, {}⟩ b.properties)
      liftM (newObject name (b.className.getD "object") args properties)) := by
  rw [instantiate]
  refine Action.valueOf_bind (fun args argValues => ?_) fun args stop s => rfl
  exact Action.valueOf_bind (fun properties values => rfl) fun properties stop s => rfl

/-! ### What is made -/

theorem instantiate_makes {c : Collaborators Chain} {v : Value}
    (h : instantiate c name b chain = (⟨node, .ok v⟩, mid)) :
    ∃ o : Object, o.typeName = b.className.getD "object" ∧ v = .object o := by
  have h := Action.run_valueOf_eq_ok.2 ⟨node, h⟩
  rw [valueOf_instantiate] at h
  obtain ⟨args, s, -, h⟩ := Action.ok_of_bind h
  obtain ⟨properties, s', -, h⟩ := Action.ok_of_bind h
  cases h
  exact ⟨_, rfl, rfl⟩

/-- **What is made of a blueprint is an object of its class**, managed as the class asks for. -/
theorem create_makes {bean : Managed} :
    ∀ {depth : Nat}, (create depth name b chain).1.outcome = .ok bean → b.Makes bean
  | 0, h => by cases h
  | depth + 1, h => by
      by_cases sound : b.className.getD "" = failingClass
      · rw [run_create_failing sound] at h
        cases h
      · rw [run_create_sound sound] at h
        split at h
        · cases h
        next made =>
          obtain ⟨o, ho, rfl⟩ := instantiate_makes made
          cases h
          exact ⟨o, ho, rfl⟩

/-- An object that is made is the last that is noted. -/
theorem create_noted {bean : Managed} {final : Chain} :
    ∀ {depth : Nat}, create depth name b chain = (⟨node, .ok bean⟩, final) →
      ∃ before, final.own.history = before ++ [.made name b]
  | 0, h => by cases h
  | depth + 1, h => by
      by_cases sound : b.className.getD "" = failingClass
      · rw [run_create_failing sound] at h
        cases h
      · rw [run_create_sound sound] at h
        split at h
        · cases h
        · cases h
          exact ⟨_, rfl⟩

/-- Only the class of factories makes factories. -/
theorem className_of_factory {v : Value} (h : b.Makes (.factory v)) :
    b.className = some factoryClass := by
  obtain ⟨o, -, ho⟩ := h
  unfold manage at ho
  split at ho
  · cases ho
  · split at ho
    next _ hclass =>
      cases hname : b.className with
      | none => rw [hname] at hclass; exact absurd hclass (by decide)
      | some className => rw [hname] at hclass; exact congrArg some hclass
    · cases ho

/-- The bean of a definition is what is made of it, or a product. -/
theorem makeBean_gives {make : Maker} {bean : Managed}
    (hm : ∀ {chain bean}, (make name b chain).1.outcome = .ok bean → b.Makes bean)
    (h : ((makeBean make name b).run chain).1 = .ok bean) : b.Gives bean := by
  rw [makeBean, Action.run_bind] at h
  have hmade : ((makeDefined make name b).run chain).1 = (make name b chain).1.outcome := rfl
  split at h
  next made s hrun =>
    have hmakes : b.Makes made := hm (hmade.symm.trans (congrArg Prod.fst hrun))
    cases made with
    | factory v => exact .inl (className_of_factory hmakes)
    | value v => cases h; exact .inr hmakes
    | null => cases h; exact .inr hmakes
  · cases h

/-! ### Merging -/

/-- A merged blueprint is the nested one, a singleton with the scope of its owner. -/
theorem merge_eq {proposed : String} {nested owner merged : Blueprint}
    (h : mergeBlueprint proposed nested owner = .ok merged) :
    merged = { nested with
      scope := if nested.isSingleton then owner.scope else nested.scope } := by
  unfold mergeBlueprint at h
  split at h
  · cases h
  · split at h
    next scopes =>
      cases h
      simp_all
    next scopes =>
      cases h
      cases single : nested.isSingleton with
      | false => rfl
      | true =>
          -- owner and nested blueprint are both singletons
          have own : owner.isSingleton := by simpa [single] using scopes
          rw [if_pos rfl, BlueprintOf.isSingleton_iff.1 own, ← BlueprintOf.isSingleton_iff.1 single]

end Chain

end Wiring
