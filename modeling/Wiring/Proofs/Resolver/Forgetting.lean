import Wiring.Proofs.Blueprint.Forgetting
import Wiring.Proofs.Resolver.Along

/-!
# Resolver — forgetting types

What a raw value remembers saves the loading of a type.  **As long as what is remembered is current,
a raw value that has forgotten it is resolved to the same outcome, in the same state, and what it
remembers afterwards is current again** (`resolve_forget`), also when resolution fails.

The types that are loaded must not change on the way: `Resolver.LoadsAs` says that the same are
loaded in every state that the work from a given one can lead to.
-/

namespace Wiring

variable {σ α β ν μ : Type}

/-- From the state, two computations with nodes have the same outcome and end in the same state, and
the node of the first is as `P` says. -/
structure SameRun (P : ν → Prop) (x : StateM σ (Resolved ν α)) (y : StateM σ (Resolved μ α))
    (s : σ) : Prop where
  outcome : (x s).1.outcome = (y s).1.outcome
  state : (x s).2 = (y s).2
  node : P (x s).1.node

namespace SameRun

variable {P : ν → Prop} {s : σ}

theorem pure {node : ν} {node' : μ} (outcome : Except Stop α) (h : P node) :
    SameRun P (Pure.pure ⟨node, outcome⟩ : StateM σ (Resolved ν α))
      (Pure.pure ⟨node', outcome⟩ : StateM σ (Resolved μ α)) s :=
  ⟨rfl, rfl, h⟩

theorem leaving {node : ν} {node' : μ} (x : Action σ α) (h : P node) :
    SameRun P (x.leaving node) (x.leaving node') s :=
  ⟨rfl, rfl, h⟩

/-- What follows two computations that run the same starts from the same state, with the same
outcome. -/
theorem bind {ν' μ' : Type} {Q : ν' → Prop} {x : StateM σ (Resolved ν α)}
    {y : StateM σ (Resolved μ α)} {f : Resolved ν α → StateM σ (Resolved ν' β)}
    {g : Resolved μ α → StateM σ (Resolved μ' β)} (h : SameRun P x y s)
    (hfg : ∀ node node' outcome, P node →
      SameRun Q (f ⟨node, outcome⟩) (g ⟨node', outcome⟩) (x s).2) :
    SameRun Q (x >>= f) (y >>= g) s := by
  obtain ⟨houtcome, hstate, hnode⟩ := h
  rcases hx : x s with ⟨⟨node, stop⟩, s'⟩
  rcases hy : y s with ⟨⟨node', stop'⟩, s''⟩
  rw [hx, hy] at houtcome hstate
  rw [hx] at hnode hfg
  obtain rfl : stop = stop' := houtcome
  obtain rfl : s' = s'' := hstate
  obtain ⟨outcome, state, left⟩ := hfg node node' stop hnode
  refine ⟨?_, ?_, ?_⟩
  · rwa [state_bind, state_bind, hx, hy]
  · rwa [state_bind, state_bind, hx, hy]
  · rwa [state_bind, hx]

/-- What follows computations that run the same from the state. -/
theorem bind_same {z z' : StateM σ β} {f : β → StateM σ (Resolved ν α)}
    {g : β → StateM σ (Resolved μ α)} (hz : z s = z' s)
    (h : SameRun P (f (z s).1) (g (z s).1) (z s).2) : SameRun P (z >>= f) (z' >>= g) s := by
  refine ⟨?_, ?_, h.node⟩
  · rw [state_bind, state_bind, ← hz]
    exact h.outcome
  · rw [state_bind, state_bind, ← hz]
    exact h.state

end SameRun

namespace Resolver

variable {R : σ → σ → Prop} {r : Resolver σ} {load : String → Except Error Ty}

/-- In every state that the work from `start` can lead to, types are loaded as `load` says. -/
def LoadsAs (R : σ → σ → Prop) (r : Resolver σ) (start : σ) (load : String → Except Error Ty) :
    Prop :=
  ∀ {s : σ}, R start s → ∀ name,
    (r.collaborators.loadType name).run s = (Action.ofExcept (load name)).run s

variable {s start : σ}

/-! ### Literals -/

/-- The value of a literal's text does not depend on the type it remembers. -/
theorem evaluateLiteral_forget (l : Literal) :
    SameRun (fun node => node.typeName = l.typeName ∧ node.target = l.target)
      (r.evaluateLiteral l) (r.evaluateLiteral l.forget) s := by
  unfold evaluateLiteral Literal.forget
  dsimp only
  cases l.text with
  | none => exact .pure _ ⟨rfl, rfl⟩
  | some text =>
      refine .bind_same rfl ?_
      cases ((r.evaluateText text).run s).1 with
      | error stop => exact .pure _ ⟨rfl, rfl⟩
      | ok v =>
          refine .pure _ ?_
          unfold observed
          split <;> exact ⟨rfl, rfl⟩

theorem current_of_same {l node : Literal} (h : l.Current load)
    (typeName : node.typeName = l.typeName) (target : node.target = l.target) :
    node.Current load := by
  rw [Literal.Current, typeName, target]
  exact h

/-- The type that is remembered is the type that would be loaded. -/
theorem targetType_forget (hload : r.LoadsAs R start load) (hs : R start s) {l : Literal}
    (current : l.Current load) : (r.targetType l).run s = (r.targetType l.forget).run s := by
  unfold targetType
  cases htarget : l.target with
  | none => rw [Literal.forget]
  | some ty =>
      obtain ⟨name, hname, hty⟩ := current ty htarget
      have hforget : l.forget.target = none ∧ l.forget.typeName = some name := ⟨rfl, hname⟩
      rw [hforget.1, hforget.2]
      dsimp only
      rw [Action.run_bind, hload hs, hty]
      rfl

/-- A type that a literal is meant for may be remembered. -/
theorem current_remember (hload : r.LoadsAs R start load) (hs : R start s) {l node : Literal}
    (current : l.Current load) (typeName : node.typeName = l.typeName)
    (target : node.target = l.target) {ty : Ty}
    (h : ((r.targetType l).run s).1 = .ok (some ty)) : (node.remember ty).Current load := by
  unfold targetType at h
  intro remembered hremembered
  rw [Literal.remember, target] at hremembered
  rw [Literal.remember, typeName]
  cases htarget : l.target with
  | some known =>
      rw [htarget] at hremembered
      obtain rfl : known = remembered := Option.some.inj hremembered
      exact current known htarget
  | none =>
      rw [htarget] at h hremembered
      obtain rfl : ty = remembered := Option.some.inj hremembered
      cases hname : l.typeName with
      | none => rw [hname] at h; cases h
      | some name =>
          rw [hname] at h
          dsimp only at h
          rw [Action.run_bind, hload hs] at h
          cases hty : load name with
          | error e => rw [hty] at h; cases h
          | ok loaded => rw [hty] at h; cases h; exact ⟨name, rfl, hty⟩

variable [IsPreorder σ R]

theorem resolveLiteral_forget (h : r.GoesAlong R) (hload : r.LoadsAs R start load) (hs : R start s)
    (path : ArgPath) {l : Literal} (current : l.Current load) :
    SameRun (Literal.Current load) (r.resolveLiteral path l) (r.resolveLiteral path l.forget)
      s := by
  unfold resolveLiteral
  have hs' := trans_of R hs (evaluateLiteral_along h l s)
  refine .bind (evaluateLiteral_forget l) fun node node' outcome ⟨typeName, target⟩ => ?_
  cases outcome with
  | error stop => exact .pure _ (current_of_same current typeName target)
  | ok v =>
      refine .bind_same ?_ ?_
      · rw [Action.run_mapError, Action.run_mapError, targetType_forget hload hs' current]
      · rw [Action.run_mapError]
        rcases htype : (r.targetType l).run (r.evaluateLiteral l s).2 with ⟨(e | _) | (_ | ty), s''⟩
        · exact .pure _ (current_of_same current typeName target)
        · exact .pure _ (current_of_same current typeName target)
        · exact .pure _ (current_of_same current typeName target)
        · exact .leaving _ (current_remember hload hs' current typeName target
            (congrArg Prod.fst htype))

/-! ### Raw trees -/

omit [IsPreorder σ R] in
/-- The element type that is remembered is the one that would be loaded. -/
theorem elementType_forget (hload : r.LoadsAs R start load) (hs : R start s) (path : ArgPath)
    {typeName : Option String} {known : Option Ty}
    (current : ∀ ty, known = some ty → IsElementType load typeName ty) :
    (r.elementType path typeName known).run s = (r.elementType path typeName none).run s := by
  cases known with
  | none => rfl
  | some ty =>
      have hty := current ty rfl
      unfold IsElementType at hty
      unfold elementType
      cases hdeclared : declaredElementType typeName with
      | none => rw [hdeclared] at hty; rw [show ty = .any from hty]
      | some name =>
          rw [hdeclared] at hty
          dsimp only at hty ⊢
          rw [Action.run_mapError, hload hs, hty]
          rfl

omit [IsPreorder σ R] in
/-- The element type of an array may be remembered. -/
theorem isElementType_of_run (hload : r.LoadsAs R start load) (hs : R start s) (path : ArgPath)
    {typeName : Option String} {known : Option Ty}
    (current : ∀ ty, known = some ty → IsElementType load typeName ty) {ty : Ty}
    (h : ((r.elementType path typeName known).run s).1 = .ok ty) :
    IsElementType load typeName ty := by
  rw [elementType_forget hload hs path current] at h
  unfold elementType at h
  unfold IsElementType
  cases hdeclared : declaredElementType typeName with
  | none => rw [hdeclared] at h; cases h; rfl
  | some name =>
      rw [hdeclared] at h
      dsimp only at h ⊢
      rw [Action.run_mapError, hload hs] at h
      cases hty : load name with
      | error e => rw [hty] at h; cases h
      | ok loaded => rw [hty] at h; cases h; rfl

theorem resolveProperties_forget (path : ArgPath) : ∀ (es : List (Literal × Literal)) (s : σ),
    SameRun (fun _ => True) (r.resolveProperties path es)
      (r.resolveProperties path (es.map fun e => (e.1.forget, e.2.forget))) s
  | [], _ => .pure _ trivial
  | (k, v) :: es, s => by
      rw [List.map_cons, resolveProperties, resolveProperties]
      refine .bind (evaluateLiteral_forget k) fun key key' outcome _ => ?_
      cases outcome with
      | error stop => exact .pure _ trivial
      | ok kv =>
          refine .bind (evaluateLiteral_forget v) fun value value' outcome _ => ?_
          cases outcome with
          | error stop => exact .pure _ trivial
          | ok vv =>
              dsimp only
              split
              · exact .pure _ trivial
              · exact .bind (resolveProperties_forget path es _) fun _ _ _ _ => .pure _ trivial

mutual

/-- **What a raw value has forgotten changes nothing**, as long as it was current: the outcome and
the state are the same, and what is remembered then is current. -/
theorem resolve_forget (h : r.GoesAlong R) (hload : r.LoadsAs R start load) (path : ArgPath) :
    ∀ (raw : Raw) {s : σ}, R start s → raw.Current load →
      SameRun (Raw.Current load) (r.resolve path raw) (r.resolve path raw.forget) s
  | .literal l, s, hs, current => by
      rw [Raw.forget, resolve, resolve]
      exact .bind (resolveLiteral_forget h hload hs path current) fun node node' outcome hnode =>
        .pure outcome hnode
  | .holder _ _ _ b, _, _, current => by
      rw [Raw.forget, show Raw.forgetBlueprint b = b from current]
      exact .leaving _ current
  | .nested _ b, _, _, current => by
      rw [Raw.forget, show Raw.forgetBlueprint b = b from current]
      exact .leaving _ current
  | .array typeName known es, s, hs, ⟨hknown, elements⟩ => by
      rw [Raw.forget, resolve, resolve]
      have hs' := trans_of R hs (elementType_along h path typeName known s)
      refine .bind_same (elementType_forget hload hs path hknown) ?_
      rcases hty : (r.elementType path typeName known).run s with ⟨stop | ty, s'⟩
      · exact .pure _ ⟨hknown, elements⟩
      · rw [hty] at hs'
        have htype := isElementType_of_run hload hs path hknown (congrArg Prod.fst hty)
        exact .bind (resolveElements_forget h hload path ty 0 es hs' elements)
          fun node node' outcome hnode =>
            .pure _ ⟨fun remembered heq => Option.some.inj heq ▸ htype, hnode⟩
  | .list es, s, hs, current => by
      rw [Raw.forget, resolve_list, resolve_list]
      exact .bind (resolveElements_forget h hload path .any 0 es hs current)
        fun node node' outcome hnode => .pure _ hnode
  | .set es, s, hs, current => by
      rw [Raw.forget, resolve_set, resolve_set]
      exact .bind (resolveElements_forget h hload path .any 0 es hs current)
        fun node node' outcome hnode => .pure _ hnode
  | .map es, s, hs, current => by
      rw [Raw.forget, resolve, resolve]
      exact .bind (resolveEntries_forget h hload path es hs current)
        fun node node' outcome hnode => .pure _ hnode
  | .properties es, s, _, _ => by
      rw [Raw.forget, resolve, resolve]
      exact .bind (resolveProperties_forget path es s) fun node node' outcome _ => .pure _ trivial
  | .null, _, _, _ => .pure _ trivial
  | .value _, _, _, _ | .reference _, _, _, _ | .nameReference _, _, _, _
  | .dependency _, _, _, _ =>
      .leaving _ trivial

theorem resolveElements_forget (h : r.GoesAlong R) (hload : r.LoadsAs R start load)
    (path : ArgPath) (ty : Ty) (i : Nat) : ∀ (es : List Raw) {s : σ}, R start s →
      Raw.CurrentAll load es →
        SameRun (Raw.CurrentAll load) (r.resolveElements path ty i es)
          (r.resolveElements path ty i (Raw.forgetAll es)) s
  | [], _, _, _ => .pure _ trivial
  | e :: es, s, hs, ⟨he, hes⟩ => by
      rw [Raw.forgetAll, resolveElements, resolveElements]
      have hfirst := trans_of R hs (resolve_along h (path.index i) e s)
      refine .bind (resolve_forget h hload (path.index i) e hs he)
        fun node node' outcome hnode => ?_
      cases outcome with
      | error stop => exact .pure _ ⟨hnode, hes⟩
      | ok v =>
          have hconverted := trans_of R hfirst (convertElement_along h (path.index i) ty v _)
          refine .bind_same rfl ?_
          rcases hv : (r.convertElement (path.index i) ty v).run
            (r.resolve (path.index i) e s).2 with ⟨stop | v', s'⟩
          · exact .pure _ ⟨hnode, hes⟩
          · rw [hv] at hconverted
            exact .bind (resolveElements_forget h hload path ty (i + 1) es hconverted hes)
              fun _ _ _ hrest => .pure _ ⟨hnode, hrest⟩

theorem resolveEntries_forget (h : r.GoesAlong R) (hload : r.LoadsAs R start load)
    (path : ArgPath) : ∀ (es : List (Raw × Raw)) {s : σ}, R start s →
      Raw.CurrentEntries load es →
        SameRun (Raw.CurrentEntries load) (r.resolveEntries path es)
          (r.resolveEntries path (Raw.forgetEntries es)) s
  | [], _, _, _ => .pure _ trivial
  | (k, v) :: es, s, hs, ⟨hk, hv, hes⟩ => by
      rw [Raw.forgetEntries, resolveEntries, resolveEntries]
      have hkey := trans_of R hs (resolve_along h path k s)
      refine .bind (resolve_forget h hload path k hs hk) fun key key' outcome hknode => ?_
      cases outcome with
      | error stop => exact .pure _ ⟨hknode, hv, hes⟩
      | ok kv =>
          have hvalue := trans_of R hkey (resolve_along h (path.key kv) v _)
          refine .bind (resolve_forget h hload (path.key kv) v hkey hv)
            fun value value' outcome hvnode => ?_
          cases outcome with
          | error stop => exact .pure _ ⟨hknode, hvnode, hes⟩
          | ok vv =>
              exact .bind (resolveEntries_forget h hload path es hvalue hes)
                fun _ _ _ hrest => .pure _ ⟨hknode, hvnode, hrest⟩

end

end Resolver

end Wiring
