import Wiring.Proofs.Resolver.SideBySide
import Wiring.Trace

/-!
# Resolver — what the argument path is for

A resolver on traced collaborators does what it does on the collaborators themselves
(`resolve_traced`), so the trace of a resolution (`Resolver.calls`) is what it asks of them, whatever
was asked before (`calls_after`).

**The argument path is told in errors and used for nothing else** (`path_only_in_errors`).  At two
paths the same is asked in the same order, the same is remembered in the raw value, the
collaborators end in the same state, and the outcomes are the same but for the path in the error.
An error of the resolver's own tells each path with the same steps below it; an error that was
passed on is the very same, whatever it tells (`Resolver.TellsBoth`).
-/

namespace Wiring

variable {σ : Type}

/-! ### Traces -/

theorem Traced.mirrors_after {α : Type} (call : Call) (x : StateM σ α) :
    Mirrors (fun (s : σ) (t : Traced σ) => t.state = s) x (Traced.after call x) := by
  rintro _ t rfl
  exact ⟨rfl, rfl⟩

theorem Lookup.mirrors_traced (call : Query → Call) (l : Lookup σ) :
    l.Mirrors (fun (s : σ) (t : Traced σ) => t.state = s) (l.traced call) where
  containsBean _ := Traced.mirrors_after _ _
  getByName _ := Traced.mirrors_after _ _
  getByType _ := Traced.mirrors_after _ _

/-- Traced collaborators answer what the collaborators answer. -/
theorem Collaborators.mirrors_traced (c : Collaborators σ) :
    c.Mirrors (fun (s : σ) (t : Traced σ) => t.state = s) c.traced where
  toMirrors := c.toLookup.mirrors_traced .lookup
  parent {s t} h := by
    subst h
    refine ⟨?_, rfl⟩
    change Option.Rel _ (c.parent t.state).1 ((c.parent t.state).1.map (Lookup.traced .inParent))
    cases (c.parent t.state).1 with
    | none => exact .none
    | some up => exact .some (up.mirrors_traced .inParent)
  resolveNamedByType _ := Traced.mirrors_after _ _
  resolveDependency _ _ := Traced.mirrors_after _ _
  registerDependent _ _ := Traced.mirrors_after _ _
  registerContained _ _ := Traced.mirrors_after _ _
  isNameInUse _ := Traced.mirrors_after _ _
  namesInUse h := h ▸ rfl
  mergeBlueprint _ _ _ := Traced.mirrors_after _ _
  createObject _ _ := Traced.mirrors_after _ _
  unwrapProduct _ _ _ := Traced.mirrors_after _ _
  loadType _ := Traced.mirrors_after _ _
  evaluate _ _ := Traced.mirrors_after _ _
  coerce _ _ := Traced.mirrors_after _ _

/-- The states are the same, and the calls kept are those that were made `before` and then those of
the first trace. -/
def Traced.Behind (before : List Call) (t u : Traced σ) : Prop :=
  u = ⟨t.state, before ++ t.calls⟩

theorem Traced.mirrors_behind {α : Type} (before : List Call) (call : Call) (x : StateM σ α) :
    Mirrors (Traced.Behind before) (Traced.after call x) (Traced.after call x) := by
  rintro t _ rfl
  exact ⟨rfl, congrArg (Traced.mk _) (List.append_assoc _ _ _)⟩

theorem Lookup.mirrors_behind (before : List Call) (call : Query → Call) (l : Lookup σ) :
    (l.traced call).Mirrors (Traced.Behind before) (l.traced call) where
  containsBean _ := Traced.mirrors_behind _ _ _
  getByName _ := Traced.mirrors_behind _ _ _
  getByType _ := Traced.mirrors_behind _ _ _

/-- What traced collaborators answer does not depend on the calls made before. -/
theorem Collaborators.mirrors_behind (before : List Call) (c : Collaborators σ) :
    c.traced.Mirrors (Traced.Behind before) c.traced where
  toMirrors := c.toLookup.mirrors_behind before .lookup
  parent := by
    rintro t _ rfl
    refine ⟨?_, congrArg (Traced.mk _) (List.append_assoc _ _ _)⟩
    change Option.Rel _ ((c.parent t.state).1.map (Lookup.traced .inParent))
      ((c.parent t.state).1.map (Lookup.traced .inParent))
    cases (c.parent t.state).1 with
    | none => exact .none
    | some up => exact .some (up.mirrors_behind before .inParent)
  resolveNamedByType _ := Traced.mirrors_behind _ _ _
  resolveDependency _ _ := Traced.mirrors_behind _ _ _
  registerDependent _ _ := Traced.mirrors_behind _ _ _
  registerContained _ _ := Traced.mirrors_behind _ _ _
  isNameInUse _ := Traced.mirrors_behind _ _ _
  namesInUse h := by cases h; rfl
  mergeBlueprint _ _ _ := Traced.mirrors_behind _ _ _
  createObject _ _ := Traced.mirrors_behind _ _ _
  unwrapProduct _ _ _ := Traced.mirrors_behind _ _ _
  loadType _ := Traced.mirrors_behind _ _ _
  evaluate _ _ := Traced.mirrors_behind _ _ _
  coerce _ _ := Traced.mirrors_behind _ _ _

/-- Collaborators answer what they answer. -/
theorem Collaborators.Mirrors.refl (c : Collaborators σ) : c.Mirrors Eq c := by
  have same : ∀ {α : Type} (x : StateM σ α), Wiring.Mirrors Eq x x := by
    rintro α x s _ rfl
    exact ⟨rfl, rfl⟩
  have lookups : ∀ l : Lookup σ, l.Mirrors Eq l := fun l =>
    ⟨fun _ => same _, fun _ => same _, fun _ => same _⟩
  exact {
    toMirrors := lookups c.toLookup
    parent := by
      rintro s _ rfl
      refine ⟨?_, rfl⟩
      cases (c.parent s).1 with
      | none => exact .none
      | some up => exact .some (lookups up)
    resolveNamedByType := fun _ => same _
    resolveDependency := fun _ _ => same _
    registerDependent := fun _ _ => same _
    registerContained := fun _ _ => same _
    isNameInUse := fun _ => same _
    namesInUse := by rintro s _ rfl; rfl
    mergeBlueprint := fun _ _ _ => same _
    createObject := fun _ _ => same _
    unwrapProduct := fun _ _ _ => same _
    loadType := fun _ => same _
    evaluate := fun _ _ => same _
    coerce := fun _ _ => same _ }

namespace Resolver

/-- The same resolver, its collaborators keeping the calls made. -/
def traced (r : Resolver σ) : Resolver (Traced σ) :=
  r.on r.collaborators.traced

/-- **Traced collaborators change nothing in a resolution.** -/
theorem resolve_traced (r : Resolver σ) (path : ArgPath) (raw : Raw) (s : σ) (calls : List Call) :
    (r.traced.resolve path raw ⟨s, calls⟩).1 = (r.resolve path raw s).1 ∧
      (r.traced.resolve path raw ⟨s, calls⟩).2.state = (r.resolve path raw s).2 :=
  have run := resolve_mirrors r.collaborators.mirrors_traced path raw s ⟨s, calls⟩ rfl
  ⟨run.result.symm, run.state⟩

/-- What a resolution asks of the collaborators, in order. -/
def calls (r : Resolver σ) (path : ArgPath) (raw : Raw) (s : σ) : List Call :=
  (r.traced.resolve path raw ⟨s, []⟩).2.calls

/-- A resolution makes its calls after those made before. -/
theorem calls_after (r : Resolver σ) (path : ArgPath) (raw : Raw) (s : σ) (before : List Call) :
    (r.traced.resolve path raw ⟨s, before⟩).2.calls = before ++ r.calls path raw s :=
  (resolve_mirrors (r := r.traced) (r.collaborators.mirrors_behind before) path raw ⟨s, []⟩
    ⟨s, before⟩ (congrArg (Traced.mk s) (List.append_nil before).symm)).state ▸ rfl

/-! ### Two paths -/

/-- The error is what a collaborator stopped with, leaving the state: the evaluation of a text, or
the choice for an injection point. -/
def Passes (r : Resolver σ) (e : Error) (s : σ) : Prop :=
  (∃ text before, (r.evaluateText text).run before = (.error (.error e), s)) ∨
    ∃ point before,
      (r.collaborators.resolveDependency point r.bean).run before = (.error (.error e), s)

/-- The errors are the very same one, which was passed on; or they are the resolver's own, tell the
same steps below the two paths, and nothing else in them is different. -/
def TellsBoth (r : Resolver σ) (a b : ArgPath) (e f : Error) (s : σ) : Prop :=
  e = f ∧ r.Passes e s ∨
    ∃ rest, e.site? = some ⟨r.origin, a.text ++ rest⟩ ∧ f = e.withArg (b.text ++ rest)

/-- A resolver runs beside itself, at any two paths. -/
theorem runsBeside_self (r : Resolver σ) (a b : ArgPath) :
    r.RunsBeside Eq (r.TellsBoth a b) r.collaborators a b where
  mirrors := .refl r.collaborators
  here := by
    rintro path path' ⟨rest, hpath, hpath'⟩ e he s
    rw [site, hpath] at he
    exact .inr ⟨rest, he, congrArg e.withArg hpath'⟩
  evaluate {text s _ _} h := .inl ⟨rfl, .inl ⟨text, s, h⟩⟩
  inject {point s _ _} h := .inl ⟨rfl, .inr ⟨point, s, h⟩⟩

/-- **The argument path is told in errors and used for nothing else.** -/
theorem path_only_in_errors (r : Resolver σ) (a b : ArgPath) (raw : Raw) (s : σ) :
    r.calls a raw s = r.calls b raw s ∧
      (r.resolve a raw s).1.node = (r.resolve b raw s).1.node ∧
      (r.resolve a raw s).2 = (r.resolve b raw s).2 ∧
      Agree (r.TellsBoth a b) (r.resolve a raw s).1.outcome (r.resolve b raw s).1.outcome
        (r.resolve a raw s).2 := by
  have run := resolve_sideBySide (r.runsBeside_self a b) (.refl a b) raw (rfl : s = s)
  have trace := resolve_sideBySide (r.traced.runsBeside_self a b) (.refl a b) raw
    (rfl : (⟨s, []⟩ : Traced σ) = ⟨s, []⟩)
  exact ⟨congrArg Traced.calls trace.state, run.result.node, run.state, run.result.outcome⟩

end Resolver

end Wiring
