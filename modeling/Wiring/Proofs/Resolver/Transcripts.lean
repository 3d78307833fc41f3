import Wiring.Proofs.Resolver.SideBySide
import Wiring.Trace

/-!
# Resolver — transcripts

`Collaborators.recorded` answers as the collaborators do (`Collaborators.mirrors_recorded`) and
keeps every call together with what came of it, in order.

`Follows plan x` says that the action `x` makes exchanges as the plan has them, up to the first call
that fails, if one does; and that it stops with what that call failed with.  **One after the other,
actions follow the plan that puts theirs together** (`Follows.bind`).
-/

namespace Wiring

variable {σ α β : Type}

/-- What a collaborator answers. -/
inductive Response where
  /-- What was asked for is recorded. -/
  | done
  | flag (b : Bool)
  | bean (bean : Managed)
  | named (found : NamedBean)
  | selected (selection : Selection)
  | blueprint (b : Blueprint)
  | type (ty : Ty)
  | value (v : Value)

/-- A call on a collaborator, and what came of it. -/
structure Exchange where
  call : Call
  outcome : Except Stop Response

namespace Exchange

/-- A call that is answered. -/
def answered (call : Call) (response : Response) : Exchange :=
  ⟨call, .ok response⟩

/-- A call that fails. -/
def failed (call : Call) (stop : Stop) : Exchange :=
  ⟨call, .error stop⟩

end Exchange

/-- A state with the exchanges made so far. -/
structure Recorded (σ : Type) where
  state : σ
  exchanges : List Exchange := []

namespace Recorded

/-- The computation on the state, with a call and its answer kept. -/
def after (call : Call) (response : α → Response) (x : StateM σ α) : StateM (Recorded σ) α :=
  fun t =>
    let (a, s) := x.run t.state
    (a, ⟨s, t.exchanges ++ [.answered call (response a)]⟩)

/-- The action on the state, with a call and what came of it kept. -/
def act (call : Call) (response : α → Response) (x : Action σ α) : Action (Recorded σ) α :=
  ExceptT.mk fun t =>
    let (outcome, s) := x.run t.state
    (outcome, ⟨s, t.exchanges ++ [⟨call, outcome.map response⟩]⟩)

theorem mirrors_after (call : Call) (response : α → Response) (x : StateM σ α) :
    Mirrors (fun (s : σ) (t : Recorded σ) => t.state = s) x (after call response x) := by
  rintro _ t rfl
  exact ⟨rfl, rfl⟩

theorem mirrors_act (call : Call) (response : α → Response) (x : Action σ α) :
    Mirrors (fun (s : σ) (t : Recorded σ) => t.state = s) x.run (act call response x).run := by
  rintro _ t rfl
  exact ⟨rfl, rfl⟩

end Recorded

/-- Look-ups that keep the exchanges made. -/
def Lookup.recorded (call : Query → Call) (l : Lookup σ) : Lookup (Recorded σ) where
  containsBean name := Recorded.after (call (.containsBean name)) .flag (l.containsBean name)
  getByName name := Recorded.act (call (.getByName name)) .bean (l.getByName name)
  getByType ty := Recorded.act (call (.getByType ty)) .bean (l.getByType ty)

/-- Collaborators that keep the exchanges made. -/
def Collaborators.recorded (c : Collaborators σ) : Collaborators (Recorded σ) where
  toLookup := c.toLookup.recorded .lookup
  parent := do
    let up ← Recorded.after .parent (fun up => .flag up.isSome) c.parent
    return up.map (Lookup.recorded .inParent)
  resolveNamedByType ty :=
    Recorded.act (.resolveNamedByType ty) .named (c.resolveNamedByType ty)
  resolveDependency d bean :=
    Recorded.act (.resolveDependency d bean) .selected (c.resolveDependency d bean)
  registerDependent a b :=
    Recorded.after (.registerDependent a b) (fun _ => .done) (c.registerDependent a b)
  registerContained a b :=
    Recorded.after (.registerContained a b) (fun _ => .done) (c.registerContained a b)
  isNameInUse name := Recorded.after (.isNameInUse name) .flag (c.isNameInUse name)
  namesInUse t := c.namesInUse t.state
  mergeBlueprint name nested owner :=
    Recorded.act (.mergeBlueprint name nested owner) .blueprint (c.mergeBlueprint name nested owner)
  createObject name b := Recorded.act (.createObject name b) .bean (c.createObject name b)
  unwrapProduct factory name post :=
    Recorded.act (.unwrapProduct factory name post) .bean (c.unwrapProduct factory name post)
  loadType name := Recorded.act (.loadType name) .type (c.loadType name)
  evaluate text b := Recorded.act (.evaluate text b) .value (c.evaluate text b)
  coerce v ty := Recorded.act (.coerce v ty) .value (c.coerce v ty)

theorem Lookup.mirrors_recorded (call : Query → Call) (l : Lookup σ) :
    l.Mirrors (fun (s : σ) (t : Recorded σ) => t.state = s) (l.recorded call) where
  containsBean _ := Recorded.mirrors_after _ _ _
  getByName _ := Recorded.mirrors_act _ _ _
  getByType _ := Recorded.mirrors_act _ _ _

/-- Recorded collaborators answer what the collaborators answer. -/
theorem Collaborators.mirrors_recorded (c : Collaborators σ) :
    c.Mirrors (fun (s : σ) (t : Recorded σ) => t.state = s) c.recorded where
  toMirrors := c.toLookup.mirrors_recorded .lookup
  parent {s t} h := by
    subst h
    refine ⟨?_, rfl⟩
    change Option.Rel _ (c.parent t.state).1 ((c.parent t.state).1.map (Lookup.recorded .inParent))
    cases (c.parent t.state).1 with
    | none => exact .none
    | some up => exact .some (up.mirrors_recorded .inParent)
  resolveNamedByType _ := Recorded.mirrors_act _ _ _
  resolveDependency _ _ := Recorded.mirrors_act _ _ _
  registerDependent a b := Recorded.mirrors_after (.registerDependent a b) (fun _ => .done) _
  registerContained a b := Recorded.mirrors_after (.registerContained a b) (fun _ => .done) _
  isNameInUse _ := Recorded.mirrors_after _ _ _
  namesInUse h := h ▸ rfl
  mergeBlueprint _ _ _ := Recorded.mirrors_act _ _ _
  createObject _ _ := Recorded.mirrors_act _ _ _
  unwrapProduct _ _ _ := Recorded.mirrors_act _ _ _
  loadType _ := Recorded.mirrors_act _ _ _
  evaluate _ _ := Recorded.mirrors_act _ _ _
  coerce _ _ := Recorded.mirrors_act _ _ _

/-! ### Plans -/

/-- The exchanges are all that the plan has for the result, or end with the first call that failed,
one for a bean, where the plan goes on with an answer. -/
inductive Plays (plan : List Exchange → α → Prop) : List Exchange → Except Stop α → Prop where
  | done {exchanges : List Exchange} {a : α} (h : plan exchanges a) : Plays plan exchanges (.ok a)
  | stopped {before rest : List Exchange} {call : Call} {bean : Managed} {a : α}
      (h : plan (before ++ .answered call (.bean bean) :: rest) a) (stop : Stop) :
      Plays plan (before ++ [.failed call stop]) (.error stop)

/-- The action makes exchanges as the plan has them. -/
structure Follows (plan : List Exchange → α → Prop) (x : Action (Recorded σ) α) : Prop where
  possible : ∃ exchanges a, plan exchanges a
  run (t : Recorded σ) : ∃ more, (x.run t).2.exchanges = t.exchanges ++ more ∧
    Plays plan more (x.run t).1

/-- The plan of two actions, one after the other. -/
def planned (first : List Exchange → α → Prop) (next : α → List Exchange → β → Prop)
    (exchanges : List Exchange) (b : β) : Prop :=
  ∃ before a after, first before a ∧ next a after b ∧ exchanges = before ++ after

variable {plan : List Exchange → α → Prop}

theorem Plays.imp {plan' : List Exchange → α → Prop} (h : ∀ {exchanges a}, plan exchanges a →
    plan' exchanges a) {exchanges : List Exchange} {outcome : Except Stop α}
    (plays : Plays plan exchanges outcome) : Plays plan' exchanges outcome := by
  cases plays with
  | done hplan => exact .done (h hplan)
  | stopped hplan stop => exact .stopped (h hplan) stop

namespace Follows

theorem imp {plan' : List Exchange → α → Prop} {x : Action (Recorded σ) α} (hx : Follows plan x)
    (h : ∀ {exchanges a}, plan exchanges a → plan' exchanges a) : Follows plan' x where
  possible := by
    obtain ⟨exchanges, a, hplan⟩ := hx.possible
    exact ⟨exchanges, a, h hplan⟩
  run t := by
    obtain ⟨more, hmore, plays⟩ := hx.run t
    exact ⟨more, hmore, plays.imp h⟩

theorem pure (a : α) :
    Follows (σ := σ) (fun exchanges b => exchanges = [] ∧ b = a) (Pure.pure a) where
  possible := ⟨[], a, rfl, rfl⟩
  run _ := ⟨[], (List.append_nil _).symm, .done ⟨rfl, rfl⟩⟩

/-- A call that cannot fail is made and answered. -/
theorem after (call : Call) (x : StateM σ Unit) :
    Follows (fun exchanges _ => exchanges = [.answered call .done])
      (liftM (Recorded.after call (fun _ => .done) x) : Action (Recorded σ) Unit) where
  possible := ⟨_, ⟨⟩, rfl⟩
  run _ := ⟨_, rfl, .done rfl⟩

/-- A call for a bean is made, and answered with it. -/
theorem act (call : Call) (x : Action σ Managed) :
    Follows (fun exchanges bean => exchanges = [.answered call (.bean bean)])
      (Recorded.act call .bean x) where
  possible := ⟨_, .null, rfl⟩
  run t := by
    refine ⟨[⟨call, (x.run t.state).1.map .bean⟩], rfl, ?_⟩
    change Plays _ [⟨call, (x.run t.state).1.map .bean⟩] (x.run t.state).1
    cases (x.run t.state).1 with
    | ok bean => exact .done rfl
    | error stop =>
        exact @Plays.stopped _ _ [] [] call .null .null rfl stop

/-- What follows goes on with its own plan, or is not begun. -/
theorem bind {next : α → List Exchange → β → Prop} {x : Action (Recorded σ) α}
    {f : α → Action (Recorded σ) β} (hx : Follows plan x) (hf : ∀ a, Follows (next a) (f a)) :
    Follows (planned plan next) (x >>= f) where
  possible := by
    obtain ⟨before, a, hbefore⟩ := hx.possible
    obtain ⟨after, b, hafter⟩ := (hf a).possible
    exact ⟨before ++ after, b, before, a, after, hbefore, hafter, rfl⟩
  run t := by
    obtain ⟨more, hmore, plays⟩ := hx.run t
    rw [Action.run_bind]
    rcases hrun : x.run t with ⟨stop | a, t'⟩
    · rw [hrun] at hmore plays
      refine ⟨more, hmore, ?_⟩
      cases plays with
      | @stopped before rest call bean a hplan =>
          -- where the plan of the first action ends, that of the second goes on
          obtain ⟨after, b, hafter⟩ := (hf a).possible
          refine @Plays.stopped _ _ before (rest ++ after) call bean b ?_ stop
          exact ⟨_, a, after, hplan, hafter, by simp⟩
    · rw [hrun] at hmore plays
      cases plays with
      | done hplan =>
          obtain ⟨after, hafter, plays⟩ := (hf a).run t'
          refine ⟨more ++ after, ?_, ?_⟩
          · dsimp only at hmore ⊢
            rw [hafter, hmore, List.append_assoc]
          · dsimp only at plays ⊢
            generalize ((f a).run t').1 = outcome at plays
            cases plays with
            | done hnext => exact .done ⟨more, a, after, hplan, hnext, rfl⟩
            | @stopped before rest call bean b hnext stop =>
                rw [← List.append_assoc]
                refine @Plays.stopped _ _ (more ++ before) rest call bean b ?_ stop
                exact ⟨more, a, _, hplan, hnext, List.append_assoc _ _ _⟩

end Follows

end Wiring
