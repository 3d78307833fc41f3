import Wiring.Proofs.Action.Raises
import Wiring.Proofs.Resolver.Visits

/-!
# Resolver — resolution as an action

Without the node it leaves, a resolution is an action (`Action.valueOf`).  The action of a
collection is that of its parts, one after the other: there is an equation for each way in which a
value is put together, and what an action stops with (`Action.error?`) and what it reaches
(`Action.reach`) is told by its parts.
-/

namespace Wiring

variable {σ α β ν μ : Type}

theorem Stop.error?_map (f : α → β) (outcome : Except Stop α) :
    Stop.error? (outcome.map f) = Stop.error? outcome := by
  rcases outcome with (_ | _) | _ <;> rfl

namespace Action

/-! ### Results and errors of an action -/

/-- The error the action stops with. -/
def error? (x : Action σ α) (s : σ) : Option Error :=
  Stop.error? (x.run s).1

theorem exists_of_error? {x : Action σ α} {s : σ} {e : Error} (h : x.error? s = some e) :
    ∃ s', x.run s = (.error (.error e), s') :=
  ⟨(x.run s).2, Prod.ext (Stop.eq_of_error? h) rfl⟩

theorem run_of_reach {x : Action σ α} {s s' : σ} {a : α} (h : x.reach s = some (a, s')) :
    x.run s = (.ok a, s') := by
  obtain ⟨b, hb, h⟩ := Option.map_eq_some_iff.1 h
  cases h
  exact Prod.ext (ok_of_toOption hb) rfl

theorem run_pure (a : α) (s : σ) : (pure a : Action σ α).run s = (.ok a, s) := rfl

theorem reach_pure (a : α) (s : σ) : (pure a : Action σ α).reach s = some (a, s) := rfl

theorem reach_bind (x : Action σ α) (f : α → Action σ β) (s : σ) :
    (x >>= f).reach s = (x.reach s).bind fun (a, s) => (f a).reach s := by
  rw [reach, reach, run_bind]
  rcases x.run s with ⟨_ | a, s'⟩ <;> rfl

theorem reach_bind_eq_some {x : Action σ α} {f : α → Action σ β} {s s' : σ} {b : β} :
    (x >>= f).reach s = some (b, s') ↔
      ∃ a mid, x.reach s = some (a, mid) ∧ (f a).reach mid = some (b, s') := by
  rw [reach_bind, Option.bind_eq_some_iff, Prod.exists]

theorem error?_pure (a : α) (s : σ) : (pure a : Action σ α).error? s = none := rfl

theorem error?_ofExcept {x : Except Error α} {s : σ} {e : Error} :
    (ofExcept x : Action σ α).error? s = some e ↔ x = .error e := by
  cases x with
  | ok a => exact ⟨nofun, nofun⟩
  | error e' => exact ⟨fun h => by cases h; rfl, fun h => by cases h; rfl⟩

theorem error?_mapError (f : Error → Error) (x : Action σ α) (s : σ) :
    (x.mapError f).error? s = (x.error? s).map f := by
  rw [error?, error?, run_mapError]
  rcases x.run s with ⟨(_ | _) | _, _⟩ <;> rfl

/-- One action and then another stop with what the first one stops with, or, once it has a result,
with what the second one does. -/
theorem error?_bind {x : Action σ α} {f : α → Action σ β} {s : σ} {e : Error} :
    (x >>= f).error? s = some e ↔
      x.error? s = some e ∨ ∃ a mid, x.reach s = some (a, mid) ∧ (f a).error? mid = some e := by
  rw [error?, error?, run_bind, reach]
  rcases x.run s with ⟨(_ | _) | a, mid⟩
  · simp [Stop.error?, Except.toOption]
  · simp [Stop.error?, Except.toOption]
  · refine ⟨fun h => .inr ⟨a, mid, rfl, h⟩, ?_⟩
    rintro (h | ⟨b, mid', hb, h⟩)
    · cases h
    · cases hb
      exact h

/-- A result that is only looked at adds no error. -/
theorem error?_map {x : Action σ α} {f : α → β} {s : σ} {e : Error} :
    (do return f (← x)).error? s = some e ↔ x.error? s = some e := by
  rw [error?_bind]
  simp [error?_pure]

/-- What was done with a part of the work is done in the whole. -/
theorem error?_bind_left {x : Action σ α} {f : α → Action σ β} {s : σ} {e : Error}
    (h : x.error? s = some e) : (x >>= f).error? s = some e :=
  error?_bind.2 (.inl h)

theorem error?_bind_right {x : Action σ α} {f : α → Action σ β} {s mid : σ} {a : α} {e : Error}
    (hx : x.reach s = some (a, mid)) (hf : (f a).error? mid = some e) :
    (x >>= f).error? s = some e :=
  error?_bind.2 (.inr ⟨a, mid, hx, hf⟩)

/-- What follows a computation that always has a result starts from there. -/
theorem run_bind_lift (x : StateM σ α) (f : α → Action σ β) (s : σ) :
    (liftM x >>= f : Action σ β).run s = (f (x s).1).run (x s).2 := rfl

/-- A computation that always has a result leaves the error to what follows. -/
theorem error?_bind_lift (x : StateM σ α) (f : α → Action σ β) (s : σ) :
    (liftM x >>= f : Action σ β).error? s = (f (x s).1).error? (x s).2 := rfl

/-- A single action in a list is the list's. -/
theorem error?_mapM_singleton {f : β → Action σ α} {b : β} {s : σ} {e : Error} :
    ([b].mapM f).error? s = some e ↔ (f b).error? s = some e := by
  rw [List.mapM_cons]
  exact error?_bind.trans (or_iff_left (by simp [error?_pure]))

/-- Work on a list, item by item, stops with what the work on an item stops with, those before it
having got their results. -/
theorem error?_each {g : Nat → List α → Action σ (List β)} {f : Nat → α → Action σ β}
    (nil : ∀ i, g i [] = pure [])
    (cons : ∀ i a as, g i (a :: as) = do return (← f i a) :: (← g (i + 1) as)) {e : Error} :
    ∀ (as : List α) (i : Nat) (s : σ), (g i as).error? s = some e ↔
      ∃ before a after bs mid, as = before ++ a :: after ∧ (g i before).reach s = some (bs, mid) ∧
        (f (i + before.length) a).error? mid = some e
  | [], i, s => by
      rw [nil]
      exact ⟨nofun, fun ⟨before, a, after, _, _, h, _⟩ => by cases before <;> cases h⟩
  | a :: as, i, s => by
      rw [cons]
      constructor
      · intro failed
        -- the first item fails, or one of the rest does, which start one position further on
        rcases error?_bind.1 failed with failed | ⟨b, mid, hb, failed⟩
        · exact ⟨[], a, as, [], s, rfl, by rw [nil, reach_pure], failed⟩
        · obtain ⟨before, a', after, bs, mid', has, hbefore, failed⟩ :=
            (error?_each nil cons as (i + 1) mid).1 (error?_map.1 failed)
          refine ⟨a :: before, a', after, b :: bs, mid', by rw [has, List.cons_append], ?_, ?_⟩
          · rw [cons]
            exact reach_bind_eq_some.2 ⟨b, mid, hb, reach_bind_eq_some.2 ⟨bs, mid', hbefore, rfl⟩⟩
          · rwa [List.length_cons, Nat.add_comm before.length, ← Nat.add_assoc]
      · rintro ⟨before, a', after, bs, mid, has, hbefore, failed⟩
        cases before with
        | nil =>
            cases has
            rw [nil] at hbefore
            cases hbefore
            exact error?_bind_left failed
        | cons first before =>
            cases has
            rw [cons] at hbefore
            obtain ⟨b, mid', hb, hrest⟩ := reach_bind_eq_some.1 hbefore
            obtain ⟨bs', mid'', hbs, hrest⟩ := reach_bind_eq_some.1 hrest
            obtain ⟨rfl, rfl⟩ := Prod.mk.inj (Option.some.inj ((reach_pure _ _).symm.trans hrest))
            refine error?_bind_right hb (error?_map.2 ((error?_each nil cons _ _ _).2
              ⟨before, a', after, bs', mid'', rfl, hbs, ?_⟩))
            rwa [List.length_cons, Nat.add_comm before.length, ← Nat.add_assoc] at failed

/-! ### The work without its node -/

/-- The work of a computation without the node it leaves. -/
def valueOf (x : StateM σ (Resolved ν α)) : Action σ α :=
  ExceptT.mk do return (← x).outcome

theorem run_valueOf (x : StateM σ (Resolved ν α)) (s : σ) :
    (valueOf x).run s = ((x s).1.outcome, (x s).2) := rfl

theorem reach_valueOf (x : StateM σ (Resolved ν α)) (s : σ) :
    (valueOf x).reach s = Wiring.reach x s := rfl

theorem run_valueOf_eq_ok {x : StateM σ (Resolved ν α)} {s s' : σ} {a : α} :
    (valueOf x).run s = (.ok a, s') ↔ ∃ node, x s = (⟨node, .ok a⟩, s') := by
  rw [run_valueOf]
  rcases x s with ⟨⟨node, outcome⟩, after⟩
  constructor
  · intro h
    cases h
    exact ⟨node, rfl⟩
  · rintro ⟨_, h⟩
    cases h
    rfl

/-- A result is made into another one, whatever the node is made into. -/
theorem valueOf_map (x : StateM σ (Resolved ν α)) (left : ν → μ) (k : α → β) :
    valueOf (x >>= fun a => pure ⟨left a.node, a.outcome.map k⟩) = do return k (← valueOf x) := by
  funext s
  change ((x s).1.outcome.map k, (x s).2) = (valueOf x >>= fun a => pure (k a)).run s
  rw [run_bind, run_valueOf]
  cases (x s).1.outcome <;> rfl

/-- What follows a computation with a node is what follows its result, when nothing follows where
there is none. -/
theorem valueOf_bind {x : StateM σ (Resolved ν α)} {f : Resolved ν α → StateM σ (Resolved μ β)}
    {g : α → Action σ β}
    (hok : ∀ node a, valueOf (f ⟨node, .ok a⟩) = g a)
    (herror : ∀ node stop s, (valueOf (f ⟨node, .error stop⟩)).run s = (.error stop, s)) :
    valueOf (x >>= f) = valueOf x >>= g := by
  funext s
  change (valueOf (f (x s).1)).run (x s).2 = (valueOf x >>= g).run s
  rw [run_bind, run_valueOf x s]
  generalize x s = left
  obtain ⟨⟨node, stop | a⟩, mid⟩ := left
  · exact herror node stop mid
  · rw [hok]

/-- The same for what follows an action. -/
theorem valueOf_bind_run {x : Action σ α} {f : Except Stop α → StateM σ (Resolved μ β)}
    {g : α → Action σ β} (hok : ∀ a, valueOf (f (.ok a)) = g a)
    (herror : ∀ stop s, (valueOf (f (.error stop))).run s = (.error stop, s)) :
    valueOf (x.run >>= f) = x >>= g := by
  funext s
  change (valueOf (f (x.run s).1)).run (x.run s).2 = (x >>= g).run s
  rw [run_bind]
  generalize x.run s = left
  obtain ⟨stop | a, mid⟩ := left
  · exact herror stop mid
  · rw [hok]

end Action

open Wiring.Action (valueOf)

namespace Resolver

/-! ### Nested blueprints -/

/-- The name a nested blueprint proposes for its object, and the blueprint. -/
def inner? (r : Resolver σ) : Raw → Option (String × Blueprint)
  | .holder name _ _ b => some (name, b)
  | .nested _ b => some (r.naming.innerName b.token, b)
  | _ => none

theorem valueOf_resolve_inner {r : Resolver σ} {raw : Raw} {proposed : String} {b : Blueprint}
    (h : r.inner? raw = some (proposed, b)) (path : ArgPath) :
    valueOf (r.resolve path raw) = r.resolveInner path proposed b := by
  cases raw with
  | holder _ _ _ _ | nested _ _ => cases h; rfl
  | _ => cases h

/-! ### Literals -/

/-- The value of a literal is that of its text. -/
theorem valueOf_evaluateLiteral (r : Resolver σ) (l : Literal) :
    valueOf (r.evaluateLiteral l) =
      match l.text with
      | none => pure .null
      | some text => r.evaluateText text := by
  rw [evaluateLiteral]
  cases l.text with
  | none => rfl
  | some text =>
      refine (Action.valueOf_bind_run (g := pure) (fun v => rfl) fun stop s => rfl).trans ?_
      exact bind_pure _

/-- A literal fails to evaluate where its text does. -/
theorem error?_evaluateLiteral {r : Resolver σ} {l : Literal} {s : σ} {e : Error} :
    (valueOf (r.evaluateLiteral l)).error? s = some e ↔
      (l.text.toList.mapM r.evaluateText).error? s = some e := by
  rw [valueOf_evaluateLiteral]
  cases l.text with
  | none => exact Iff.rfl
  | some text => exact Action.error?_mapM_singleton.symm

/-- A literal's value is converted into its type once it has one. -/
theorem valueOf_resolveLiteral (r : Resolver σ) (path : ArgPath) (l : Literal) :
    valueOf (r.resolveLiteral path l) = (do
      let v ← valueOf (r.evaluateLiteral l)
      match ← (r.targetType l).mapError (r.typedValueError path) with
      | none => return v
      | some ty => (r.collaborators.coerce v ty).mapError (r.typedValueError path)) := by
  refine Action.valueOf_bind (fun node v => ?_) fun node stop s => rfl
  refine Action.valueOf_bind_run (fun target => ?_) fun stop s => rfl
  cases target <;> rfl

theorem valueOf_resolveProperties_cons (r : Resolver σ) (path : ArgPath) (k v : Literal)
    (es : List (Literal × Literal)) :
    valueOf (r.resolveProperties path ((k, v) :: es)) = (do
      let kv ← valueOf (r.evaluateLiteral k)
      let vv ← valueOf (r.evaluateLiteral v)
      if kv.isNull || vv.isNull then Action.fail (.nullProperty (r.site path))
      else return (kv, vv) :: (← valueOf (r.resolveProperties path es))) := by
  rw [resolveProperties]
  refine Action.valueOf_bind (fun key kv => ?_) fun key stop s => rfl
  refine Action.valueOf_bind (fun value vv => ?_) fun value stop s => rfl
  dsimp only
  split
  · rfl
  · exact Action.valueOf_map _ ((key, value) :: ·) ((kv, vv) :: ·)

/-! ### Collections -/

/-- The value of a raw value at the path, converted into the type. -/
def converted (r : Resolver σ) (path : ArgPath) (ty : Ty) (raw : Raw) : Action σ Value := do
  r.convertElement path ty (← valueOf (r.resolve path raw))

theorem reach_converted (r : Resolver σ) (path : ArgPath) (ty : Ty) (raw : Raw) (s : σ) :
    (r.converted path ty raw).reach s = r.reachConverted path ty raw s :=
  Action.reach_bind _ _ s

theorem converted_any (r : Resolver σ) (path : ArgPath) (raw : Raw) :
    r.converted path .any raw = valueOf (r.resolve path raw) :=
  bind_pure _

theorem valueOf_resolveElements_cons (r : Resolver σ) (path : ArgPath) (ty : Ty) (n : Nat) (e : Raw)
    (es : List Raw) :
    valueOf (r.resolveElements path ty n (e :: es)) = (do
      let v ← r.converted (path.index n) ty e
      return v :: (← valueOf (r.resolveElements path ty (n + 1) es))) := by
  rw [resolveElements, converted, bind_assoc]
  refine Action.valueOf_bind (fun first v => ?_) fun first stop s => rfl
  refine Action.valueOf_bind_run (fun v => ?_) fun stop s => rfl
  exact Action.valueOf_map _ (first :: ·) (v :: ·)

theorem valueOf_resolveEntries_cons (r : Resolver σ) (path : ArgPath) (k v : Raw)
    (es : List (Raw × Raw)) :
    valueOf (r.resolveEntries path ((k, v) :: es)) = (do
      let kv ← valueOf (r.resolve path k)
      let vv ← valueOf (r.resolve (path.key kv) v)
      return (kv, vv) :: (← valueOf (r.resolveEntries path es))) := by
  rw [resolveEntries]
  refine Action.valueOf_bind (fun key kv => ?_) fun key stop s => rfl
  refine Action.valueOf_bind (fun value vv => ?_) fun value stop s => rfl
  exact Action.valueOf_map _ ((key, value) :: ·) ((kv, vv) :: ·)

theorem valueOf_resolve_array (r : Resolver σ) (path : ArgPath) (typeName : Option String)
    (remembered : Option Ty) (es : List Raw) :
    valueOf (r.resolve path (.array typeName remembered es)) = (do
      let ty ← r.elementType path typeName remembered
      return .array ty (← valueOf (r.resolveElements path ty 0 es))) := by
  rw [resolve]
  refine Action.valueOf_bind_run (fun ty => ?_) fun stop s => rfl
  exact Action.valueOf_map _ (Raw.array typeName (some ty)) (Value.array ty)

theorem valueOf_resolve_list (r : Resolver σ) (path : ArgPath) (es : List Raw) :
    valueOf (r.resolve path (.list es)) =
      do return .list (← valueOf (r.resolveElements path .any 0 es)) := by
  rw [resolve_list]
  exact Action.valueOf_map _ Raw.list Value.list

theorem valueOf_resolve_set (r : Resolver σ) (path : ArgPath) (es : List Raw) :
    valueOf (r.resolve path (.set es)) =
      do return Value.setOf (← valueOf (r.resolveElements path .any 0 es)) := by
  rw [resolve_set]
  exact Action.valueOf_map _ Raw.set Value.setOf

theorem valueOf_resolve_map (r : Resolver σ) (path : ArgPath) (es : List (Raw × Raw)) :
    valueOf (r.resolve path (.map es)) =
      do return Value.mapOf (← valueOf (r.resolveEntries path es)) := by
  rw [resolve]
  exact Action.valueOf_map _ Raw.map Value.mapOf

theorem valueOf_resolve_properties (r : Resolver σ) (path : ArgPath)
    (es : List (Literal × Literal)) :
    valueOf (r.resolve path (.properties es)) =
      do return Value.propertiesOf (← valueOf (r.resolveProperties path es)) := by
  rw [resolve]
  exact Action.valueOf_map _ Raw.properties Value.propertiesOf

end Resolver

end Wiring
