import Wiring.Proofs.Blueprint.Cells
import Wiring.Proofs.Resolver.Along
import Wiring.Proofs.Resolver.Faults

/-!
# Resolver — the parts of a raw value

A node of a raw value holds no injection point and no nested blueprint that the raw value does not
hold (`Raw.PartOf`).  **A node that is visited is part of the raw value, and is come to along every
relation that the resolver goes along** (`visit_stays`).  The rest of the resolution leads along the
relation from there (`rest_of_visit`).
-/

namespace Wiring

namespace Raw

/-- What the raw value holds in the way of injection points and nested blueprints, the other one
holds too. -/
structure PartOf (part raw : Raw) : Prop where
  points : part.injectionPoints ⊆ raw.injectionPoints
  cells : part.cells ⊆ raw.cells

namespace PartOf

variable {part raw e k v : Raw} {es : List Raw} {entries : List (Raw × Raw)}

theorem refl (raw : Raw) : raw.PartOf raw := ⟨List.Subset.refl _, List.Subset.refl _⟩

theorem literal (l : Literal) (raw : Raw) : (Raw.literal l).PartOf raw :=
  ⟨List.nil_subset _, List.nil_subset _⟩

theorem head (h : part.PartOf e) : part.PartOf (.list (e :: es)) :=
  ⟨List.subset_append_of_subset_left _ h.points, List.subset_append_of_subset_left _ h.cells⟩

theorem tail (h : part.PartOf (.list es)) : part.PartOf (.list (e :: es)) :=
  ⟨List.subset_append_of_subset_right _ h.points, List.subset_append_of_subset_right _ h.cells⟩

theorem key (h : part.PartOf k) : part.PartOf (.map ((k, v) :: entries)) :=
  ⟨List.subset_append_of_subset_left _ h.points, List.subset_append_of_subset_left _ h.cells⟩

theorem value (h : part.PartOf v) : part.PartOf (.map ((k, v) :: entries)) :=
  ⟨List.subset_append_of_subset_right _ (List.subset_append_of_subset_left _ h.points),
    List.subset_append_of_subset_right _ (List.subset_append_of_subset_left _ h.cells)⟩

theorem entry (h : part.PartOf (.map entries)) : part.PartOf (.map ((k, v) :: entries)) :=
  ⟨List.subset_append_of_subset_right _ (List.subset_append_of_subset_right _ h.points),
    List.subset_append_of_subset_right _ (List.subset_append_of_subset_right _ h.cells)⟩

end PartOf

theorem partOf_of_mem : ∀ {e : Raw} {es : List Raw}, e ∈ es → e.PartOf (.list es)
  | _, _ :: _, .head _ => .head (.refl _)
  | _, _ :: _, .tail _ h => .tail (partOf_of_mem h)

end Raw

/-! ### What a resolution visits -/

section

variable {σ α β ν : Type} {R : σ → σ → Prop} {s s' : σ} {a : α}

/-- A result is reached along the relation. -/
theorem Along.of_reach {x : StateM σ (Resolved ν α)} (h : Along R x)
    (reached : reach x s = some (a, s')) : R s s' := by
  obtain ⟨b, -, heq⟩ := Option.map_eq_some_iff.1 reached
  cases heq
  exact h s

theorem Action.along_of_reach {x : Action σ α} (h : Along R x.run)
    (reached : x.reach s = some (a, s')) : R s s' := by
  obtain ⟨b, -, heq⟩ := Option.map_eq_some_iff.1 reached
  cases heq
  exact h s

/-- What is begun once there is a result ends where the whole does. -/
theorem Action.rest_of_reach {x : Action σ α} {f : α → Action σ β} {s s' mid : σ} {a : α}
    (hx : x.reach s = some (a, s')) (h : R mid ((f a).run s').2) : R mid ((x >>= f).run s).2 := by
  rwa [run_bind, run_of_reach hx]

/-- Work on a list, item by item, goes on from where an item has been worked on, those before it
having got their results. -/
theorem Action.rest_of_each [IsPreorder σ R] {g : Nat → List α → Action σ (List β)}
    {f : Nat → α → Action σ β} (nil : ∀ i, g i [] = pure [])
    (cons : ∀ i a as, g i (a :: as) = do return (← f i a) :: (← g (i + 1) as))
    (hg : ∀ i as, Along R (g i as).run) {a : α} (after : List α) {mid : σ} :
    ∀ (before : List α) {i : Nat} {bs : List β} {s s' : σ}, (g i before).reach s = some (bs, s') →
      R mid ((f (i + before.length) a).run s').2 → R mid ((g i (before ++ a :: after)).run s).2
  | [], i, bs, s, s', reached, h => by
      rw [nil] at reached
      cases reached
      rw [List.nil_append, cons]
      exact rest_of_bind (fun b => along_bind (hg _ _) fun _ => along_pure _) h
  | first :: before, i, bs, s, s', reached, h => by
      rw [cons] at reached
      obtain ⟨b, s₁, hb, reached⟩ := reach_bind_eq_some.1 reached
      obtain ⟨bs', s₂, hbs, reached⟩ := reach_bind_eq_some.1 reached
      cases reached
      rw [List.length_cons, Nat.add_comm before.length, ← Nat.add_assoc] at h
      rw [List.cons_append, cons]
      exact rest_of_reach hb (rest_of_bind (fun _ => along_pure _)
        (rest_of_each nil cons hg after before hbs h))

/-- What is made of the result of a computation leads along the relation. -/
theorem Action.along_map_valueOf [IsPreorder σ R] {x : StateM σ (Resolved ν α)} (h : Along R x)
    (f : α → β) : Along R (do return f (← valueOf x) : Action σ β).run :=
  along_bind h fun a => along_pure (f a)

end

namespace Resolver

variable {σ : Type} {R : σ → σ → Prop} [IsPreorder σ R] {r : Resolver σ}

theorem reachConverted_along (h : r.GoesAlong R) {path : ArgPath} {ty : Ty} {raw : Raw} {s s' : σ}
    {v : Value} (reached : r.reachConverted path ty raw s = some (v, s')) : R s s' := by
  obtain ⟨⟨first, mid⟩, hfirst, hrest⟩ := Option.bind_eq_some_iff.1 reached
  exact trans_of R ((resolve_along h path raw).of_reach hfirst)
    (Action.along_of_reach (convertElement_along h path ty first) hrest)

theorem visitProperties_stays (h : r.GoesAlong R) (raw : Raw)
    {es : List (Literal × Literal)} {s : σ} {place : List Nat} {v : Visit σ}
    (visited : r.visitProperties? es s place = some v) : R s v.state ∧ v.node.PartOf raw := by
  fun_induction r.visitProperties? es s place with
  | case1 k l es s =>
      cases visited
      exact ⟨refl_of R s, .literal k raw⟩
  | case2 k l es s =>
      obtain ⟨⟨kv, mid⟩, hk, rfl⟩ := Option.map_eq_some_iff.1 visited
      exact ⟨(evaluateLiteral_along h k).of_reach hk, .literal l raw⟩
  | case3 k l es s i place ih =>
      obtain ⟨⟨kv, vv, mid⟩, entry, visited⟩ := Option.bind_eq_some_iff.1 visited
      obtain ⟨s', hk, hv, -⟩ := exists_of_reachProperty entry
      obtain ⟨hrest, hpart⟩ := ih mid visited
      exact ⟨trans_of R ((evaluateLiteral_along h k).of_reach hk)
        (trans_of R ((evaluateLiteral_along h l).of_reach hv) hrest), hpart⟩
  | case4 => cases visited

mutual

/-- **A node that is visited stands in the raw value**, and is come to along the relation. -/
theorem visit_stays (h : r.GoesAlong R) (path : ArgPath) (ty : Ty) : ∀ (raw : Raw) (s : σ)
    {place : List Nat} {v : Visit σ}, r.visit? path ty raw s place = some v →
      R s v.state ∧ v.node.PartOf raw
  | .null, s, place, _, visited | .literal _, s, place, _, visited | .value _, s, place, _, visited
  | .reference _, s, place, _, visited | .nameReference _, s, place, _, visited
  | .dependency _, s, place, _, visited | .holder _ _ _ _, s, place, _, visited
  | .nested _ _, s, place, _, visited => by
      cases place with
      | nil => cases visited; exact ⟨refl_of R s, .refl _⟩
      | cons i place => cases visited
  | .array typeName remembered es, s, place, v, visited => by
      cases place with
      | nil => cases visited; exact ⟨refl_of R s, .refl _⟩
      | cons i place =>
          rw [visit?_array_cons] at visited
          obtain ⟨⟨elementTy, mid⟩, hty, visited⟩ := Option.bind_eq_some_iff.1 visited
          obtain ⟨hrest, hpart⟩ := visitElements_stays h path elementTy 0 es mid visited
          exact ⟨trans_of R (Action.along_of_reach
            (elementType_along h path typeName remembered) hty) hrest, hpart.points, hpart.cells⟩
  | .list es, s, place, v, visited => by
      cases place with
      | nil => cases visited; exact ⟨refl_of R s, .refl _⟩
      | cons i place => exact visitElements_stays h path .any 0 es s visited
  | .set es, s, place, v, visited => by
      cases place with
      | nil => cases visited; exact ⟨refl_of R s, .refl _⟩
      | cons i place =>
          obtain ⟨hrest, hpart⟩ := visitElements_stays h path .any 0 es s visited
          exact ⟨hrest, hpart.points, hpart.cells⟩
  | .map es, s, place, v, visited => by
      cases place with
      | nil => cases visited; exact ⟨refl_of R s, .refl _⟩
      | cons i place => exact visitEntries_stays h path es s visited
  | .properties es, s, place, v, visited => by
      cases place with
      | nil => cases visited; exact ⟨refl_of R s, .refl _⟩
      | cons i place => exact visitProperties_stays h _ visited

theorem visitElements_stays (h : r.GoesAlong R) (path : ArgPath) (ty : Ty) :
    ∀ (n : Nat) (es : List Raw) (s : σ) {place : List Nat} {v : Visit σ},
      r.visitElements? path ty n es s place = some v → R s v.state ∧ v.node.PartOf (.list es)
  | _, [], _, _, _, visited => by cases visited
  | n, e :: es, s, 0 :: place, v, visited => by
      obtain ⟨hstate, hpart⟩ := visit_stays h (path.index n) ty e s visited
      exact ⟨hstate, .head hpart⟩
  | n, e :: es, s, (i + 1) :: place, v, visited => by
      obtain ⟨⟨value, mid⟩, he, visited⟩ := Option.bind_eq_some_iff.1 visited
      obtain ⟨hrest, hpart⟩ := visitElements_stays h path ty (n + 1) es mid visited
      exact ⟨trans_of R (reachConverted_along h he) hrest, .tail hpart⟩

theorem visitEntries_stays (h : r.GoesAlong R) (path : ArgPath) : ∀ (es : List (Raw × Raw)) (s : σ)
    {place : List Nat} {v : Visit σ}, r.visitEntries? path es s place = some v →
      R s v.state ∧ v.node.PartOf (.map es)
  | [], _, _, _, visited => by cases visited
  | (k, w) :: es, s, 0 :: 0 :: place, v, visited => by
      obtain ⟨hstate, hpart⟩ := visit_stays h path .any k s visited
      exact ⟨hstate, .key hpart⟩
  | (k, w) :: es, s, 0 :: 1 :: place, v, visited => by
      obtain ⟨⟨kv, mid⟩, hk, visited⟩ := Option.bind_eq_some_iff.1 visited
      obtain ⟨hstate, hpart⟩ := visit_stays h (path.key kv) .any w mid visited
      exact ⟨trans_of R ((resolve_along h path k).of_reach hk) hstate, .value hpart⟩
  | (k, w) :: es, s, (i + 1) :: place, v, visited => by
      obtain ⟨⟨kv, mid⟩, hk, visited⟩ := Option.bind_eq_some_iff.1 visited
      obtain ⟨⟨vv, mid'⟩, hv, visited⟩ := Option.bind_eq_some_iff.1 visited
      obtain ⟨hrest, hpart⟩ := visitEntries_stays h path es mid' visited
      exact ⟨trans_of R ((resolve_along h path k).of_reach hk)
        (trans_of R ((resolve_along h (path.key kv) w).of_reach hv) hrest), .entry hpart⟩

end

/-! ### The rest of a run -/

open Wiring.Action (valueOf rest_of_bind rest_of_reach along_map_valueOf)

/-- The state in which what is visited has been resolved. -/
def after (r : Resolver σ) : Visit σ → σ
  | .value path _ raw s => (r.resolve path raw s).2
  | .key l s => (r.evaluateLiteral l s).2
  | .property _ l s => (r.evaluateLiteral l s).2

theorem rest_of_visitProperties (h : r.GoesAlong R) (path : ArgPath)
    (es : List (Literal × Literal)) (s : σ) (place : List Nat) {v : Visit σ}
    (visited : r.visitProperties? es s place = some v) :
    R (r.after v) (r.resolveProperties path es s).2 := by
  have later (kv vv : Value) (es : List (Literal × Literal)) :
      Along R (if kv.isNull || vv.isNull then Action.fail (.nullProperty (r.site path))
        else do return (kv, vv) :: (← valueOf (r.resolveProperties path es)) :
          Action σ (List (Value × Value))).run := by
    split
    · exact Action.along_fail _
    · exact along_map_valueOf (resolveProperties_along h path es) _
  fun_induction r.visitProperties? es s place with
  | case1 k l es s =>
      cases visited
      change R _ ((valueOf (r.resolveProperties path ((k, l) :: es))).run s).2
      rw [valueOf_resolveProperties_cons]
      exact rest_of_bind (fun kv => Action.along_bind (evaluateLiteral_along h l) fun vv =>
        later kv vv es) (refl_of R _)
  | case2 k l es s =>
      obtain ⟨⟨kv, mid⟩, hk, rfl⟩ := Option.map_eq_some_iff.1 visited
      change R _ ((valueOf (r.resolveProperties path ((k, l) :: es))).run s).2
      rw [valueOf_resolveProperties_cons]
      exact rest_of_reach hk (rest_of_bind (fun vv => later kv vv es) (refl_of R _))
  | case3 k l es s i place ih =>
      obtain ⟨⟨kv, vv, mid⟩, entry, visited⟩ := Option.bind_eq_some_iff.1 visited
      obtain ⟨s', hk, hv, nonnull⟩ := exists_of_reachProperty entry
      change R _ ((valueOf (r.resolveProperties path ((k, l) :: es))).run s).2
      rw [valueOf_resolveProperties_cons]
      refine rest_of_reach hk (rest_of_reach hv ?_)
      rw [nonnull, if_neg Bool.false_ne_true]
      exact rest_of_bind (fun _ => Action.along_pure _) (ih mid visited)
  | case4 => cases visited

mutual

/-- **The rest of a resolution leads along the relation** from where a node that is visited has been
resolved. -/
theorem rest_of_visit (h : r.GoesAlong R) (path : ArgPath) (ty : Ty) : ∀ (raw : Raw) (s : σ)
    {place : List Nat} {v : Visit σ}, r.visit? path ty raw s place = some v →
      R (r.after v) ((r.converted path ty raw).run s).2
  | .null, s, place, _, visited | .literal _, s, place, _, visited | .value _, s, place, _, visited
  | .reference _, s, place, _, visited | .nameReference _, s, place, _, visited
  | .dependency _, s, place, _, visited | .holder _ _ _ _, s, place, _, visited
  | .nested _ _, s, place, _, visited => by
      cases place with
      | nil => cases visited; exact rest_of_bind (convertElement_along h path ty) (refl_of R _)
      | cons i place => cases visited
  | .array typeName remembered es, s, place, v, visited => by
      refine rest_of_bind (convertElement_along h path ty) ?_
      cases place with
      | nil => cases visited; exact refl_of R _
      | cons i place =>
          rw [visit?_array_cons] at visited
          obtain ⟨⟨elementTy, mid⟩, hty, visited⟩ := Option.bind_eq_some_iff.1 visited
          rw [valueOf_resolve_array]
          exact rest_of_reach hty (rest_of_bind (fun _ => Action.along_pure _)
            (rest_of_visitElements h path elementTy 0 es mid visited))
  | .list es, s, place, v, visited => by
      refine rest_of_bind (convertElement_along h path ty) ?_
      cases place with
      | nil => cases visited; exact refl_of R _
      | cons i place =>
          rw [valueOf_resolve_list]
          exact rest_of_bind (fun _ => Action.along_pure _)
            (rest_of_visitElements h path .any 0 es s visited)
  | .set es, s, place, v, visited => by
      refine rest_of_bind (convertElement_along h path ty) ?_
      cases place with
      | nil => cases visited; exact refl_of R _
      | cons i place =>
          rw [valueOf_resolve_set]
          exact rest_of_bind (fun _ => Action.along_pure _)
            (rest_of_visitElements h path .any 0 es s visited)
  | .map es, s, place, v, visited => by
      refine rest_of_bind (convertElement_along h path ty) ?_
      cases place with
      | nil => cases visited; exact refl_of R _
      | cons i place =>
          rw [valueOf_resolve_map]
          exact rest_of_bind (fun _ => Action.along_pure _)
            (rest_of_visitEntries h path es s visited)
  | .properties es, s, place, v, visited => by
      refine rest_of_bind (convertElement_along h path ty) ?_
      cases place with
      | nil => cases visited; exact refl_of R _
      | cons i place =>
          rw [valueOf_resolve_properties]
          exact rest_of_bind (fun _ => Action.along_pure _)
            (rest_of_visitProperties h path es s _ visited)

theorem rest_of_visitElements (h : r.GoesAlong R) (path : ArgPath) (ty : Ty) :
    ∀ (n : Nat) (es : List Raw) (s : σ) {place : List Nat} {v : Visit σ},
      r.visitElements? path ty n es s place = some v →
        R (r.after v) (r.resolveElements path ty n es s).2
  | _, [], _, _, _, visited => by cases visited
  | n, e :: es, s, 0 :: place, v, visited => by
      change R _ ((valueOf (r.resolveElements path ty n (e :: es))).run s).2
      rw [valueOf_resolveElements_cons]
      exact rest_of_bind (fun v => along_map_valueOf (resolveElements_along h path ty (n + 1) es) _)
        (rest_of_visit h (path.index n) ty e s visited)
  | n, e :: es, s, (i + 1) :: place, v, visited => by
      obtain ⟨⟨value, mid⟩, he, visited⟩ := Option.bind_eq_some_iff.1 visited
      change R _ ((valueOf (r.resolveElements path ty n (e :: es))).run s).2
      rw [valueOf_resolveElements_cons]
      exact rest_of_reach ((reach_converted _ _ _ _ _).trans he) (rest_of_bind
        (fun _ => Action.along_pure _) (rest_of_visitElements h path ty (n + 1) es mid visited))

theorem rest_of_visitEntries (h : r.GoesAlong R) (path : ArgPath) :
    ∀ (es : List (Raw × Raw)) (s : σ) {place : List Nat} {v : Visit σ},
      r.visitEntries? path es s place = some v →
        R (r.after v) (r.resolveEntries path es s).2
  | [], _, _, _, visited => by cases visited
  | (k, w) :: es, s, 0 :: 0 :: place, v, visited => by
      have key := rest_of_visit h path .any k s visited
      rw [converted_any] at key
      change R _ ((valueOf (r.resolveEntries path ((k, w) :: es))).run s).2
      rw [valueOf_resolveEntries_cons]
      exact rest_of_bind (fun kv => Action.along_bind (resolve_along h _ w) fun vv =>
        along_map_valueOf (resolveEntries_along h path es) _) key
  | (k, w) :: es, s, 0 :: 1 :: place, v, visited => by
      obtain ⟨⟨kv, mid⟩, hk, visited⟩ := Option.bind_eq_some_iff.1 visited
      have value := rest_of_visit h (path.key kv) .any w mid visited
      rw [converted_any] at value
      change R _ ((valueOf (r.resolveEntries path ((k, w) :: es))).run s).2
      rw [valueOf_resolveEntries_cons]
      exact rest_of_reach hk
        (rest_of_bind (fun vv => along_map_valueOf (resolveEntries_along h path es) _) value)
  | (k, w) :: es, s, (i + 1) :: place, v, visited => by
      obtain ⟨⟨kv, mid⟩, hk, visited⟩ := Option.bind_eq_some_iff.1 visited
      obtain ⟨⟨vv, mid'⟩, hv, visited⟩ := Option.bind_eq_some_iff.1 visited
      change R _ ((valueOf (r.resolveEntries path ((k, w) :: es))).run s).2
      rw [valueOf_resolveEntries_cons]
      exact rest_of_reach hk (rest_of_reach hv (rest_of_bind (fun _ => Action.along_pure _)
        (rest_of_visitEntries h path es mid' visited)))

end

end Resolver

end Wiring
