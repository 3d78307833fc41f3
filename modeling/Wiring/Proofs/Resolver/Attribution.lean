import Wiring.Proofs.Action.Raises
import Wiring.Resolver.Tree

/-!
# Resolver — the errors of a resolution

A resolver wraps what its collaborators raise into errors of its own, which tell its bean and an
argument path, with two exceptions: what the evaluation of a text raises, and what the container
raises while it chooses for an injection point.  `Resolver.RaisesWithin` says of a property of
errors that it covers the errors of the resolver's own at the path or below it, and the exceptions.

**Resolution raises within every such property** (`resolve_raises`).
-/

namespace Wiring

namespace Raw

mutual

/-- The injection points of a raw value, outside nested blueprints. -/
def injectionPoints : Raw → List Dependency
  | dependency d => [d]
  | array _ _ es => injectionPointsAll es
  | list es => injectionPointsAll es
  | set es => injectionPointsAll es
  | map es => injectionPointsEntries es
  | _ => []
termination_by structural raw => raw

/-- The injection points of the elements. -/
def injectionPointsAll : List Raw → List Dependency
  | [] => []
  | e :: es => injectionPoints e ++ injectionPointsAll es
termination_by structural es => es

/-- The injection points of the keys and values. -/
def injectionPointsEntries : List (Raw × Raw) → List Dependency
  | [] => []
  | (k, v) :: es => injectionPoints k ++ (injectionPoints v ++ injectionPointsEntries es)
termination_by structural es => es

end

end Raw

/-- The path stands at the other path or below it. -/
def ArgPath.Extends (path root : ArgPath) : Prop :=
  ∃ rest, path.text = root.text ++ rest

namespace ArgPath.Extends

variable {path root : ArgPath}

theorem refl (path : ArgPath) : path.Extends path := ⟨"", (String.append_empty).symm⟩

theorem index (h : path.Extends root) (i : Nat) : (path.index i).Extends root := by
  obtain ⟨rest, h⟩ := h
  refine ⟨rest ++ ("[" ++ (toString i ++ "]")), ?_⟩
  simp only [ArgPath.text, h, String.append_assoc]

theorem key (h : path.Extends root) (k : Value) : (path.key k).Extends root := by
  obtain ⟨rest, h⟩ := h
  refine ⟨rest ++ ("[" ++ (k.text ++ "]")), ?_⟩
  simp only [ArgPath.text, h, String.append_assoc]

end ArgPath.Extends

namespace Resolver

variable {σ : Type} {P : Error → σ → Prop} {r : Resolver σ} {root : ArgPath}

/-- `P` covers the errors of the resolver's own at the path or below it, what the evaluation of a
text raises, and what the injection points raise. -/
structure RaisesWithin (P : Error → σ → Prop) (r : Resolver σ) (root : ArgPath)
    (points : List Dependency) : Prop where
  here {e : Error} {path : ArgPath} (h : e.site? = some (r.site path)) (below : path.Extends root)
    (s : σ) : P e s
  evaluate (text : String) : (r.evaluateText text).Raises P
  inject {d : Dependency} (h : d ∈ points) : (r.collaborators.resolveDependency d r.bean).Raises P

theorem RaisesWithin.mono {points points' : List Dependency} (h : r.RaisesWithin P root points)
    (hsub : points' ⊆ points) : r.RaisesWithin P root points' where
  here := h.here
  evaluate := h.evaluate
  inject hd := h.inject (hsub hd)

/-! ### Texts and literals -/

variable {points : List Dependency} {path : ArgPath}

theorem evaluateName_raises (h : r.RaisesWithin P root points) (name : String) :
    (r.evaluateName name).Raises P :=
  Action.raises_bind (h.evaluate name) fun v => Action.raises_pure v.text

theorem evaluateLiteral_raises (h : r.RaisesWithin P root points) (l : Literal) :
    Raises P (r.evaluateLiteral l) := by
  unfold evaluateLiteral
  cases l.text with
  | none => exact raises_return _
  | some text =>
      refine raises_bind_run (h.evaluate text) fun outcome s hs => ?_
      cases outcome with
      | ok v => exact trivial
      | error stop => exact hs

theorem resolveLiteral_raises (h : r.RaisesWithin P root points) (hp : path.Extends root)
    (l : Literal) : Raises P (r.resolveLiteral path l) := by
  have here : ∀ e s, P (r.typedValueError path e) s := fun e s => h.here rfl hp s
  unfold resolveLiteral
  refine raises_bind (evaluateLiteral_raises h l) fun evaluated s hs => ?_
  cases houtcome : evaluated.outcome with
  | error stop => rw [houtcome] at hs; exact hs
  | ok v =>
      refine raises_bind_run (Action.raises_mapError _ here) (fun target s hs => ?_) s
      match target, hs with
      | .error stop, hs => exact within_error hs
      | .ok none, _ => exact trivial
      | .ok (some ty), _ => exact Action.raises_mapError _ here s

theorem resolveProperties_raises (h : r.RaisesWithin P root points) (hp : path.Extends root) :
    ∀ es : List (Literal × Literal), Raises P (r.resolveProperties path es)
  | [] => raises_return _
  | (k, v) :: es => by
      rw [resolveProperties]
      refine raises_bind (evaluateLiteral_raises h k) fun key s hs => ?_
      cases hkey : key.outcome with
      | error stop => rw [hkey] at hs; exact within_error hs
      | ok kv =>
          refine raises_bind (evaluateLiteral_raises h v) (fun value s hs => ?_) s
          cases hvalue : value.outcome with
          | error stop => rw [hvalue] at hs; exact within_error hs
          | ok vv =>
              dsimp only
              split
              · exact h.here (e := .nullProperty (r.site path)) rfl hp s
              · exact raises_bind (resolveProperties_raises h hp es)
                  (fun rest s hs => within_map _ hs) s

theorem resolveValue_raises (h : r.RaisesWithin P root points) (v : Value) :
    (r.resolveValue v).Raises P := by
  unfold resolveValue
  split
  · exact h.evaluate _
  · exact Action.raises_bind (Action.raises_mapM h.evaluate _) fun values => Action.raises_pure _
  · exact Action.raises_pure _

/-! ### References -/

theorem followReference_raises (h : r.RaisesWithin P root points) (hp : path.Extends root)
    (ref : Reference) : (r.followReference path ref).Raises P := by
  have here : ∀ e s, P (r.referenceError path ref e) s := fun e s => h.here rfl hp s
  unfold followReference
  split
  · -- the parent's errors are wrapped like the container's own
    refine Action.raises_bind_lift fun s => ?_
    cases (r.collaborators.parent s).1 with
    | none => exact Action.raises_fail fun s => h.here rfl hp s
    | some parent => exact Action.raises_mapError _ here
  · exact Action.raises_mapError _ here

theorem resolveReference_raises (h : r.RaisesWithin P root points) (hp : path.Extends root)
    (ref : Reference) : (r.resolveReference path ref).Raises P :=
  Action.raises_bind (followReference_raises h hp ref) fun _ => Action.raises_pure _

theorem resolveName_raises (h : r.RaisesWithin P root points) (hp : path.Extends root)
    (name : String) : (r.resolveName path name).Raises P := by
  refine Action.raises_bind (evaluateName_raises h name) fun name => ?_
  refine Action.raises_bind (Action.raises_lift _) fun known => ?_
  cases known with
  | true => exact Action.raises_pure _
  | false => exact Action.raises_fail fun s => h.here rfl hp s

theorem resolveDependency_raises (h : r.RaisesWithin P root points) {d : Dependency}
    (hd : d ∈ points) : (r.resolveDependency d).Raises P := by
  refine Action.raises_bind (h.inject hd) fun selection => ?_
  exact Action.raises_bind (Action.raises_lift _) fun _ => Action.raises_pure _

/-! ### Inner beans -/

/-- The search for a name stops with nothing but a reached bound. -/
theorem searchName_raises (base : String) : ∀ (tries counter : Nat) (candidate : String),
    (r.searchName base tries counter candidate).Raises P
  | 0, _, _ => Action.raises_exhausted
  | tries + 1, counter, candidate => by
      rw [searchName]
      refine Action.raises_bind (Action.raises_lift _) fun busy => ?_
      cases busy with
      | true => exact searchName_raises base tries (counter + 1) _
      | false => exact Action.raises_pure _

theorem innerName_raises (proposed : String) (merged : Blueprint) :
    (r.innerName proposed merged).Raises P := by
  unfold innerName
  split
  · exact Action.raises_bind (Action.raises_lift get) fun s => searchName_raises proposed _ _ _
  · exact Action.raises_pure _

theorem resolveInner_raises (h : r.RaisesWithin P root points) (hp : path.Extends root)
    (proposed : String) (nested : Blueprint) : (r.resolveInner path proposed nested).Raises P := by
  refine Action.raises_bind (Action.raises_mapError _ fun e s => h.here rfl hp s) fun merged => ?_
  refine Action.raises_bind (innerName_raises proposed merged) fun inner => ?_
  exact Action.raises_mapError _ fun e s => h.here rfl hp s

/-! ### Raw trees -/

theorem elementType_raises (h : r.RaisesWithin P root points) (hp : path.Extends root)
    (typeName : Option String) (remembered : Option Ty) :
    (r.elementType path typeName remembered).Raises P := by
  unfold elementType
  split
  · exact Action.raises_pure _
  · exact Action.raises_mapError _ fun e s => h.here rfl hp s
  · exact Action.raises_pure _

theorem convertElement_raises (h : r.RaisesWithin P root points) (hp : path.Extends root) (ty : Ty)
    (v : Value) : (r.convertElement path ty v).Raises P := by
  unfold convertElement
  split
  · exact Action.raises_pure _
  · exact Action.raises_mapError _ fun e s => h.here rfl hp s

mutual

/-- **Resolution raises errors of its own at the path or below it, and what its texts and injection
points raise.** -/
theorem resolve_raises {path : ArgPath} (hp : path.Extends root) :
    ∀ raw : Raw, r.RaisesWithin P root raw.injectionPoints → Raises P (r.resolve path raw)
  | .null, _ => raises_return _
  | .literal l, h => raises_bind (resolveLiteral_raises h hp l) fun _ _ hs => hs
  | .value v, h => Action.raises_leaving (resolveValue_raises h v)
  | .reference ref, h => Action.raises_leaving (resolveReference_raises h hp ref)
  | .nameReference name, h => Action.raises_leaving (resolveName_raises h hp name)
  | .dependency d, h =>
      Action.raises_leaving (resolveDependency_raises h (List.mem_singleton.2 rfl))
  | .holder name _ _ b, h => Action.raises_leaving (resolveInner_raises h hp name b)
  | .nested _ b, h => Action.raises_leaving (resolveInner_raises h hp _ b)
  | .array typeName remembered es, h => by
      rw [resolve]
      refine raises_bind_run (elementType_raises h hp typeName remembered) fun ty s hs => ?_
      cases ty with
      | error stop => exact within_error hs
      | ok ty =>
          exact raises_bind (resolveElements_raises hp ty 0 es h)
            (fun _ _ hs => within_map _ hs) s
  | .list es, h => by
      rw [resolve_list]
      exact raises_bind (resolveElements_raises hp .any 0 es h) fun _ _ hs => within_map _ hs
  | .set es, h => by
      rw [resolve_set]
      exact raises_bind (resolveElements_raises hp .any 0 es h) fun _ _ hs => within_map _ hs
  | .map es, h => raises_bind (resolveEntries_raises hp es h) fun _ _ hs => within_map _ hs
  | .properties es, h =>
      raises_bind (resolveProperties_raises h hp es) fun _ _ hs => within_map _ hs

theorem resolveElements_raises {path : ArgPath} (hp : path.Extends root) (ty : Ty) (i : Nat) :
    ∀ es : List Raw, r.RaisesWithin P root (Raw.injectionPointsAll es) →
      Raises P (r.resolveElements path ty i es)
  | [], _ => raises_return _
  | e :: es, h => by
      rw [Raw.injectionPointsAll] at h
      rw [resolveElements]
      refine raises_bind (resolve_raises (hp.index i) e (h.mono (List.subset_append_left _ _)))
        fun first s hs => ?_
      cases hfirst : first.outcome with
      | error stop => rw [hfirst] at hs; exact within_error hs
      | ok v =>
          refine raises_bind_run (convertElement_raises h (hp.index i) ty v) (fun v s hs => ?_) s
          cases v with
          | error stop => exact within_error hs
          | ok v =>
              exact raises_bind
                (resolveElements_raises hp ty (i + 1) es (h.mono (List.subset_append_right _ _)))
                (fun _ _ hs => within_map _ hs) s

theorem resolveEntries_raises {path : ArgPath} (hp : path.Extends root) :
    ∀ es : List (Raw × Raw), r.RaisesWithin P root (Raw.injectionPointsEntries es) →
      Raises P (r.resolveEntries path es)
  | [], _ => raises_return _
  | (k, v) :: es, h => by
      rw [Raw.injectionPointsEntries] at h
      have hrest := h.mono (List.subset_append_right _ _)
      rw [resolveEntries]
      refine raises_bind (resolve_raises hp k (h.mono (List.subset_append_left _ _)))
        fun key s hs => ?_
      cases hkey : key.outcome with
      | error stop => rw [hkey] at hs; exact within_error hs
      | ok kv =>
          refine raises_bind
            (resolve_raises (hp.key kv) v (hrest.mono (List.subset_append_left _ _)))
            (fun value s hs => ?_) s
          cases hvalue : value.outcome with
          | error stop => rw [hvalue] at hs; exact within_error hs
          | ok vv =>
              exact raises_bind
                (resolveEntries_raises hp es (hrest.mono (List.subset_append_right _ _)))
                (fun _ _ hs => within_map _ hs) s

end

end Resolver

end Wiring
