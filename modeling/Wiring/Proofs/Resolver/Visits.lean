import Wiring.Resolver.Tree

/-!
# Resolver — the visits of a resolution

The nodes of a raw value stand at places (`Raw.places`), listed in the order of traversal: a
collection before what stands in it, elements and entries in their order, a key before its value.
Nothing is listed below a nested blueprint.

`Resolver.visit?` tells how a resolution comes to the node at a place: with which argument path, and
in which state of the collaborators.  It comes to a node when everything before it has got its
value.  **Behind a node that has got none, no node is visited** (`visits_in_order`), and a
resolution that has a value has visited every node (`visits_all`).
-/

namespace Wiring

variable {σ : Type}

/-! ### Places -/

namespace Raw

/-- The place with its position in a collection moved on by one. -/
def shift : List Nat → List Nat
  | i :: place => (i + 1) :: place
  | [] => []

/-- The places of the literals of properties. -/
def placesLiterals : List (Literal × Literal) → List (List Nat)
  | [] => []
  | _ :: es => [0, 0] :: [0, 1] :: (placesLiterals es).map shift

mutual

/-- The places of a raw value's nodes, in the order of traversal. -/
def places : Raw → List (List Nat)
  | array _ _ es => [] :: placesAll es
  | list es => [] :: placesAll es
  | set es => [] :: placesAll es
  | map es => [] :: placesEntries es
  | properties es => [] :: placesLiterals es
  | _ => [[]]
termination_by structural raw => raw

/-- The places of the nodes of elements. -/
def placesAll : List Raw → List (List Nat)
  | [] => []
  | e :: es => (places e).map (0 :: ·) ++ (placesAll es).map shift
termination_by structural es => es

/-- The places of the nodes of keys and values. -/
def placesEntries : List (Raw × Raw) → List (List Nat)
  | [] => []
  | (k, v) :: es =>
    (places k).map (0 :: 0 :: ·) ++ ((places v).map (0 :: 1 :: ·) ++ (placesEntries es).map shift)
termination_by structural es => es

end

theorem ne_nil_of_mem_shifted {places : List (List Nat)} (h : ∀ place ∈ places, place ≠ []) :
    ∀ place ∈ places.map shift, place ≠ [] := by
  refine List.forall_mem_map.2 fun place hplace => ?_
  cases place with
  | nil => exact absurd rfl (h [] hplace)
  | cons i place => exact List.cons_ne_nil _ _

theorem ne_nil_of_mem_placesLiterals (es : List (Literal × Literal)) :
    ∀ place ∈ placesLiterals es, place ≠ [] := by
  induction es with
  | nil => exact List.forall_mem_nil _
  | cons e es ih =>
      exact List.forall_mem_cons.2 ⟨List.cons_ne_nil _ _,
        List.forall_mem_cons.2 ⟨List.cons_ne_nil _ _, ne_nil_of_mem_shifted ih⟩⟩

theorem ne_nil_of_mem_placesAll (es : List Raw) : ∀ place ∈ placesAll es, place ≠ [] := by
  induction es with
  | nil => exact List.forall_mem_nil _
  | cons e es ih =>
      exact List.forall_mem_append.2 ⟨List.forall_mem_map.2 fun _ _ => List.cons_ne_nil _ _,
        ne_nil_of_mem_shifted ih⟩

theorem ne_nil_of_mem_placesEntries (es : List (Raw × Raw)) :
    ∀ place ∈ placesEntries es, place ≠ [] := by
  induction es with
  | nil => exact List.forall_mem_nil _
  | cons e es ih =>
      obtain ⟨k, v⟩ := e
      exact List.forall_mem_append.2 ⟨List.forall_mem_map.2 fun _ _ => List.cons_ne_nil _ _,
        List.forall_mem_append.2 ⟨List.forall_mem_map.2 fun _ _ => List.cons_ne_nil _ _,
          ne_nil_of_mem_shifted ih⟩⟩

end Raw

/-! ### Visits -/

/-- How a resolution comes to a node. -/
inductive Visit (σ : Type) where
  /-- The raw value is resolved at the path, from the state, to be converted into the type. -/
  | value (path : ArgPath) (ty : Ty) (raw : Raw) (s : σ)
  /-- The text of a properties key is evaluated, from the state. -/
  | key (l : Literal) (s : σ)
  /-- The text of a properties value is evaluated, from the state, for a key with the value. -/
  | property (key : Value) (l : Literal) (s : σ)

/-- The node visited. -/
def Visit.node : Visit σ → Raw
  | value _ _ raw _ => raw
  | key l _ => .literal l
  | property _ l _ => .literal l

/-- The result of a computation that leaves a node, and the state it ends in. -/
def reach {ν α : Type} (x : StateM σ (Resolved ν α)) (s : σ) : Option (α × σ) :=
  (x s).1.outcome.toOption.map fun a => (a, (x s).2)

/-- The result of an action, and the state it ends in. -/
def Action.reach {α : Type} (x : Action σ α) (s : σ) : Option (α × σ) :=
  (x.run s).1.toOption.map fun a => (a, (x.run s).2)

theorem reach_eq_some {ν α : Type} {x : StateM σ (Resolved ν α)} {s s' : σ} {node : ν} {a : α}
    (h : x s = (⟨node, .ok a⟩, s')) : reach x s = some (a, s') := by
  rw [reach, h]
  rfl

theorem reach_eq_none {ν α : Type} {x : StateM σ (Resolved ν α)} {s s' : σ} {node : ν} {stop : Stop}
    (h : x s = (⟨node, .error stop⟩, s')) : reach x s = none := by
  rw [reach, h]
  rfl

theorem reach_bind {ν α β : Type} (x : StateM σ β) (f : β → StateM σ (Resolved ν α)) (s : σ) :
    reach (x >>= f) s = reach (f (x s).1) (x s).2 := rfl

/-- A result is made into another one, and the node into another one. -/
theorem reach_map {ν μ α β : Type} (x : StateM σ (Resolved ν α)) (left : ν → μ) (k : α → β)
    (s : σ) : reach (x >>= fun a => pure ⟨left a.node, a.outcome.map k⟩) s =
      (reach x s).map fun (a, s) => (k a, s) := by
  rw [reach_bind, reach, reach]
  change ((x s).1.outcome.map k).toOption.map _ = _
  cases (x s).1.outcome <;> rfl

theorem Action.reach_eq_some {α : Type} {x : Action σ α} {s s' : σ} {a : α}
    (h : x.run s = (.ok a, s')) : x.reach s = some (a, s') := by
  rw [reach, h]
  rfl

theorem Action.reach_eq_none {α : Type} {x : Action σ α} {s s' : σ} {stop : Stop}
    (h : x.run s = (.error stop, s')) : x.reach s = none := by
  rw [reach, h]
  rfl

theorem Action.reach_mapError {α : Type} (f : Error → Error) (x : Action σ α) (s : σ) :
    (x.mapError f).reach s = x.reach s := by
  rw [reach, reach, run_mapError]
  rcases x.run s with ⟨(_ | _) | _, _⟩ <;> rfl

namespace Resolver

/-- The value of the raw value at the path, converted into the type. -/
def reachConverted (r : Resolver σ) (path : ArgPath) (ty : Ty) (raw : Raw) (s : σ) :
    Option (Value × σ) :=
  (reach (r.resolve path raw) s).bind fun (v, s) => (r.convertElement path ty v).reach s

/-- The values of an entry of properties, neither of them null. -/
def reachProperty (r : Resolver σ) (k v : Literal) (s : σ) : Option (Value × Value × σ) :=
  (reach (r.evaluateLiteral k) s).bind fun (kv, s) =>
    (reach (r.evaluateLiteral v) s).bind fun (vv, s) =>
      if kv.isNull || vv.isNull then none else some (kv, vv, s)

/-- How the literal at a place of properties is come to. -/
def visitProperties? (r : Resolver σ) : List (Literal × Literal) → σ → List Nat → Option (Visit σ)
  | (k, _) :: _, s, [0, 0] => some (.key k s)
  | (k, v) :: _, s, [0, 1] => (reach (r.evaluateLiteral k) s).map fun (kv, s) => .property kv v s
  | (k, v) :: es, s, (i + 1) :: place =>
    (r.reachProperty k v s).bind fun (_, _, s) => r.visitProperties? es s (i :: place)
  | _, _, _ => none

mutual

/-- How the node at a place is come to when the raw value is resolved at the path, from the state,
to be converted into the type. -/
def visit? (r : Resolver σ) (path : ArgPath) (ty : Ty) : Raw → σ → List Nat → Option (Visit σ)
  | raw, s, [] => some (.value path ty raw s)
  | .array typeName remembered es, s, place =>
    ((r.elementType path typeName remembered).reach s).bind fun (ty, s) =>
      r.visitElements? path ty 0 es s place
  | .list es, s, place => r.visitElements? path .any 0 es s place
  | .set es, s, place => r.visitElements? path .any 0 es s place
  | .map es, s, place => r.visitEntries? path es s place
  | .properties es, s, place => r.visitProperties? es s place
  | _, _, _ => none
termination_by structural raw => raw

/-- How the node at a place among elements is come to. -/
def visitElements? (r : Resolver σ) (path : ArgPath) (ty : Ty) (n : Nat) :
    List Raw → σ → List Nat → Option (Visit σ)
  | e :: _, s, 0 :: place => r.visit? (path.index n) ty e s place
  | e :: es, s, (i + 1) :: place =>
    (r.reachConverted (path.index n) ty e s).bind fun (_, s) =>
      r.visitElements? path ty (n + 1) es s (i :: place)
  | _, _, _ => none
termination_by structural es => es

/-- How the node at a place among entries is come to. -/
def visitEntries? (r : Resolver σ) (path : ArgPath) :
    List (Raw × Raw) → σ → List Nat → Option (Visit σ)
  | (k, _) :: _, s, 0 :: 0 :: place => r.visit? path .any k s place
  | (k, v) :: _, s, 0 :: 1 :: place =>
    (reach (r.resolve path k) s).bind fun (kv, s) => r.visit? (path.key kv) .any v s place
  | (k, v) :: es, s, (i + 1) :: place =>
    (reach (r.resolve path k) s).bind fun (kv, s) =>
      (reach (r.resolve (path.key kv) v) s).bind fun (_, s) =>
        r.visitEntries? path es s (i :: place)
  | _, _, _ => none
termination_by structural es => es

end

variable {r : Resolver σ}

/-- What is visited gets its value: converted, if it is an element, and for a properties value, with
neither it nor its key being null. -/
def succeeds (r : Resolver σ) : Visit σ → Bool
  | .value path ty raw s => (r.reachConverted path ty raw s).isSome
  | .key l s => (reach (r.evaluateLiteral l) s).isSome
  | .property kv l s => (reach (r.evaluateLiteral l) s).any fun (vv, _) => !(kv.isNull || vv.isNull)

/-- What stands in the raw value visited is gone into: that of an array only once there is an
element type. -/
def opens (r : Resolver σ) : Visit σ → Bool
  | .value path _ (.array typeName remembered _) s =>
    ((r.elementType path typeName remembered).reach s).isSome
  | _ => true

/-- The name whose type is asked for at the visit, and the state it is asked in: for a literal that
remembers no type, once its text has a value, and for an array that remembers none. -/
def request? (r : Resolver σ) : Visit σ → Option (String × σ)
  | .value _ _ (.literal l) s =>
    match l.target, l.typeName with
    | none, some name => (reach (r.evaluateLiteral l) s).map fun (_, s) => (name, s)
    | _, _ => none
  | .value _ _ (.array typeName none _) s =>
    (declaredElementType typeName).map fun name => (name, s)
  | _ => none

/-! ### Results, part by part -/

theorem reachConverted_any (path : ArgPath) (raw : Raw) (s : σ) :
    r.reachConverted path .any raw s = reach (r.resolve path raw) s := by
  rw [reachConverted]
  cases reach (r.resolve path raw) s <;> rfl

theorem reach_resolveElements_cons (path : ArgPath) (ty : Ty) (n : Nat) (e : Raw) (es : List Raw)
    (s : σ) :
    reach (r.resolveElements path ty n (e :: es)) s =
      (r.reachConverted (path.index n) ty e s).bind fun (v, s) =>
        (reach (r.resolveElements path ty (n + 1) es) s).map fun (vs, s) => (v :: vs, s) := by
  rw [resolveElements, reach_bind, reachConverted]
  rcases he : r.resolve (path.index n) e s with ⟨⟨first, stop | v⟩, mid⟩
  · rw [reach_eq_none he]
    rfl
  · rw [reach_eq_some he, Option.bind_some]
    dsimp only
    rw [reach_bind]
    rcases hv : (r.convertElement (path.index n) ty v).run mid with ⟨stop | v', mid'⟩
    · rw [Action.reach_eq_none hv]
      rfl
    · rw [Action.reach_eq_some hv, Option.bind_some]
      exact reach_map _ (first :: ·) (v' :: ·) mid'

theorem reach_resolveEntries_cons (path : ArgPath) (k v : Raw) (es : List (Raw × Raw)) (s : σ) :
    reach (r.resolveEntries path ((k, v) :: es)) s =
      (reach (r.resolve path k) s).bind fun (kv, s) =>
        (reach (r.resolve (path.key kv) v) s).bind fun (vv, s) =>
          (reach (r.resolveEntries path es) s).map fun (vs, s) => ((kv, vv) :: vs, s) := by
  rw [resolveEntries, reach_bind]
  rcases hk : r.resolve path k s with ⟨⟨key, stop | kv⟩, mid⟩
  · rw [reach_eq_none hk]
    rfl
  · rw [reach_eq_some hk, Option.bind_some]
    dsimp only
    rw [reach_bind]
    rcases hv : r.resolve (path.key kv) v mid with ⟨⟨value, stop | vv⟩, mid'⟩
    · rw [reach_eq_none hv]
      rfl
    · rw [reach_eq_some hv, Option.bind_some]
      exact reach_map _ ((key, value) :: ·) ((kv, vv) :: ·) mid'

theorem reach_resolveProperties_cons (path : ArgPath) (k v : Literal)
    (es : List (Literal × Literal)) (s : σ) :
    reach (r.resolveProperties path ((k, v) :: es)) s =
      (r.reachProperty k v s).bind fun (kv, vv, s) =>
        (reach (r.resolveProperties path es) s).map fun (vs, s) => ((kv, vv) :: vs, s) := by
  rw [resolveProperties, reach_bind, reachProperty]
  rcases hk : r.evaluateLiteral k s with ⟨⟨key, stop | kv⟩, mid⟩
  · rw [reach_eq_none hk]
    rfl
  · rw [reach_eq_some hk]
    dsimp only
    rw [reach_bind]
    rcases hv : r.evaluateLiteral v mid with ⟨⟨value, stop | vv⟩, mid'⟩
    · rw [Option.bind_some]
      dsimp only
      rw [reach_eq_none hv]
      rfl
    · rw [Option.bind_some]
      dsimp only
      rw [reach_eq_some hv, Option.bind_some]
      dsimp only
      split
      · rfl
      · exact reach_map _ ((key, value) :: ·) ((kv, vv) :: ·) mid'

theorem reach_resolveArray (path : ArgPath) (typeName : Option String) (remembered : Option Ty)
    (es : List Raw) (s : σ) :
    reach (r.resolve path (.array typeName remembered es)) s =
      ((r.elementType path typeName remembered).reach s).bind fun (ty, s) =>
        (reach (r.resolveElements path ty 0 es) s).map fun (vs, s) => (.array ty vs, s) := by
  rw [resolve, reach_bind]
  rcases hty : (r.elementType path typeName remembered).run s with ⟨stop | ty, mid⟩
  · rw [Action.reach_eq_none hty]
    rfl
  · rw [Action.reach_eq_some hty, Option.bind_some]
    exact reach_map _ (Raw.array typeName (some ty)) (Value.array ty) mid

/-! ### A resolution that has a value has visited every node -/

theorem visitProperties?_nil (es : List (Literal × Literal)) (s : σ) :
    r.visitProperties? es s [] = none := by
  cases es <;> rfl

theorem visitProperties?_shift (k v : Literal) (es : List (Literal × Literal)) (s : σ) :
    ∀ place, r.visitProperties? ((k, v) :: es) s (Raw.shift place) =
      (r.reachProperty k v s).bind fun (_, _, s) => r.visitProperties? es s place
  | _ :: _ => rfl
  | [] => by
      rw [Raw.shift]
      simp only [visitProperties?_nil, Option.bind_fun_none]

theorem visitElements?_nil (path : ArgPath) (ty : Ty) (n : Nat) (es : List Raw) (s : σ) :
    r.visitElements? path ty n es s [] = none := by
  cases es <;> rfl

theorem visitElements?_shift (path : ArgPath) (ty : Ty) (n : Nat) (e : Raw) (es : List Raw)
    (s : σ) : ∀ place, r.visitElements? path ty n (e :: es) s (Raw.shift place) =
      (r.reachConverted (path.index n) ty e s).bind fun (_, s) =>
        r.visitElements? path ty (n + 1) es s place
  | _ :: _ => rfl
  | [] => by
      rw [Raw.shift]
      simp only [visitElements?_nil, Option.bind_fun_none]

theorem visitEntries?_nil (path : ArgPath) (es : List (Raw × Raw)) (s : σ) :
    r.visitEntries? path es s [] = none := by
  cases es <;> rfl

theorem visitEntries?_shift (path : ArgPath) (k v : Raw) (es : List (Raw × Raw)) (s : σ) :
    ∀ place, r.visitEntries? path ((k, v) :: es) s (Raw.shift place) =
      (reach (r.resolve path k) s).bind fun (kv, s) =>
        (reach (r.resolve (path.key kv) v) s).bind fun (_, s) => r.visitEntries? path es s place
  | _ :: _ => rfl
  | [] => by
      rw [Raw.shift]
      simp only [visitEntries?_nil, Option.bind_fun_none]

theorem visit?_array_cons (path : ArgPath) (ty : Ty) (typeName : Option String)
    (remembered : Option Ty) (es : List Raw) (s : σ) (i : Nat) (place : List Nat) :
    r.visit? path ty (.array typeName remembered es) s (i :: place) =
      ((r.elementType path typeName remembered).reach s).bind fun (ty, s) =>
        r.visitElements? path ty 0 es s (i :: place) := rfl

/-- The values of an entry are had one after the other, and are not null. -/
theorem exists_of_reachProperty {k v : Literal} {s s' : σ} {kv vv : Value}
    (h : r.reachProperty k v s = some (kv, vv, s')) :
    ∃ mid, reach (r.evaluateLiteral k) s = some (kv, mid) ∧
      reach (r.evaluateLiteral v) mid = some (vv, s') ∧ (kv.isNull || vv.isNull) = false := by
  obtain ⟨⟨kv', mid⟩, hk, h⟩ := Option.bind_eq_some_iff.1 h
  obtain ⟨⟨vv', s''⟩, hv, h⟩ := Option.bind_eq_some_iff.1 h
  dsimp only at h hv
  split at h
  · cases h
  next notNull =>
    cases h
    exact ⟨mid, hk, hv, by rwa [Bool.not_eq_true] at notNull⟩

/-- The value of an entry that is no fault is visited and gets its value. -/
theorem property_succeeds {k v : Literal} (es : List (Literal × Literal)) {s s' : σ} {kv vv : Value}
    (h : r.reachProperty k v s = some (kv, vv, s')) :
    (r.visitProperties? ((k, v) :: es) s [0, 1]).any r.succeeds := by
  obtain ⟨mid, hk, hv, notNull⟩ := exists_of_reachProperty h
  rw [visitProperties?, hk, Option.map_some, Option.any_some, succeeds, hv, Option.any_some]
  dsimp only
  rw [notNull]
  rfl

theorem isSome_of_bind {α β : Type} {x : Option α} {f : α → Option β} (h : (x.bind f).isSome) :
    x.isSome := by
  cases x with
  | none => cases h
  | some _ => rfl

theorem isSome_of_reachConverted {path : ArgPath} {ty : Ty} {raw : Raw} {s : σ}
    (h : (r.reachConverted path ty raw s).isSome) : (reach (r.resolve path raw) s).isSome :=
  isSome_of_bind h

theorem visitsProperties_all (path : ArgPath) : ∀ (es : List (Literal × Literal)) (s : σ),
    (reach (r.resolveProperties path es) s).isSome →
      ∀ place ∈ Raw.placesLiterals es, (r.visitProperties? es s place).any r.succeeds
  | [], _, _ => nofun
  | (k, v) :: es, s, h => by
      rw [reach_resolveProperties_cons] at h
      cases hkv : r.reachProperty k v s with
      | none => rw [hkv] at h; cases h
      | some entry =>
          obtain ⟨kv, vv, mid⟩ := entry
          rw [hkv, Option.bind_some, Option.isSome_map] at h
          refine List.forall_mem_cons.2 ⟨?_, List.forall_mem_cons.2 ⟨property_succeeds es hkv,
            List.forall_mem_map.2 fun place hplace => ?_⟩⟩
          · rw [visitProperties?, Option.any_some, succeeds]
            exact isSome_of_bind (by rw [← reachProperty, hkv]; rfl)
          · rw [visitProperties?_shift, hkv, Option.bind_some]
            exact visitsProperties_all path es mid h place hplace

mutual

/-- **A resolution that has a value has visited every node**, and each has got its value. -/
theorem visits_all (path : ArgPath) (ty : Ty) : ∀ (raw : Raw) (s : σ),
    (r.reachConverted path ty raw s).isSome →
      ∀ place ∈ raw.places, (r.visit? path ty raw s place).any r.succeeds
  | .null, _, h | .literal _, _, h | .value _, _, h | .reference _, _, h
  | .nameReference _, _, h | .dependency _, _, h | .holder _ _ _ _, _, h | .nested _ _, _, h =>
      List.forall_mem_singleton.2 h
  | .array typeName remembered es, s, h => by
      refine List.forall_mem_cons.2 ⟨h, fun place hplace => ?_⟩
      have hes := isSome_of_reachConverted h
      rw [reach_resolveArray] at hes
      cases place with
      | nil => exact absurd rfl (Raw.ne_nil_of_mem_placesAll es [] hplace)
      | cons i place =>
          rw [visit?_array_cons]
          cases hty : (r.elementType path typeName remembered).reach s with
          | none => rw [hty] at hes; cases hes
          | some elementTy =>
              obtain ⟨elementTy, mid⟩ := elementTy
              rw [hty, Option.bind_some, Option.isSome_map] at hes
              exact visitsElements_all path elementTy 0 es mid hes _ hplace
  | .list es, s, h => by
      refine List.forall_mem_cons.2 ⟨h, fun place hplace => ?_⟩
      have hes := isSome_of_reachConverted h
      rw [resolve_list, reach_map, Option.isSome_map] at hes
      cases place with
      | nil => exact absurd rfl (Raw.ne_nil_of_mem_placesAll es [] hplace)
      | cons i place => exact visitsElements_all path .any 0 es s hes _ hplace
  | .set es, s, h => by
      refine List.forall_mem_cons.2 ⟨h, fun place hplace => ?_⟩
      have hes := isSome_of_reachConverted h
      rw [resolve_set, reach_map, Option.isSome_map] at hes
      cases place with
      | nil => exact absurd rfl (Raw.ne_nil_of_mem_placesAll es [] hplace)
      | cons i place => exact visitsElements_all path .any 0 es s hes _ hplace
  | .map es, s, h => by
      refine List.forall_mem_cons.2 ⟨h, fun place hplace => ?_⟩
      have hes := isSome_of_reachConverted h
      rw [resolve, reach_map, Option.isSome_map] at hes
      cases place with
      | nil => exact absurd rfl (Raw.ne_nil_of_mem_placesEntries es [] hplace)
      | cons i place => exact visitsEntries_all path es s hes _ hplace
  | .properties es, s, h => by
      refine List.forall_mem_cons.2 ⟨h, fun place hplace => ?_⟩
      have hes := isSome_of_reachConverted h
      rw [resolve, reach_map, Option.isSome_map] at hes
      cases place with
      | nil => exact absurd rfl (Raw.ne_nil_of_mem_placesLiterals es [] hplace)
      | cons i place => exact visitsProperties_all path es s hes _ hplace

theorem visitsElements_all (path : ArgPath) (ty : Ty) : ∀ (n : Nat) (es : List Raw) (s : σ),
    (reach (r.resolveElements path ty n es) s).isSome →
      ∀ place ∈ Raw.placesAll es, (r.visitElements? path ty n es s place).any r.succeeds
  | _, [], _, _ => nofun
  | n, e :: es, s, h => by
      rw [reach_resolveElements_cons] at h
      cases he : r.reachConverted (path.index n) ty e s with
      | none => rw [he] at h; cases h
      | some v =>
          obtain ⟨v, mid⟩ := v
          rw [he, Option.bind_some, Option.isSome_map] at h
          refine List.forall_mem_append.2 ⟨List.forall_mem_map.2 fun place hplace => ?_,
            List.forall_mem_map.2 fun place hplace => ?_⟩
          · exact visits_all (path.index n) ty e s (by rw [he]; rfl) place hplace
          · rw [visitElements?_shift, he, Option.bind_some]
            exact visitsElements_all path ty (n + 1) es mid h place hplace

theorem visitsEntries_all (path : ArgPath) : ∀ (es : List (Raw × Raw)) (s : σ),
    (reach (r.resolveEntries path es) s).isSome →
      ∀ place ∈ Raw.placesEntries es, (r.visitEntries? path es s place).any r.succeeds
  | [], _, _ => nofun
  | (k, v) :: es, s, h => by
      rw [reach_resolveEntries_cons] at h
      cases hk : reach (r.resolve path k) s with
      | none => rw [hk] at h; cases h
      | some key =>
          obtain ⟨kv, mid⟩ := key
          rw [hk, Option.bind_some] at h
          dsimp only at h
          cases hv : reach (r.resolve (path.key kv) v) mid with
          | none => rw [hv] at h; cases h
          | some value =>
              obtain ⟨vv, mid'⟩ := value
              rw [hv, Option.bind_some, Option.isSome_map] at h
              refine List.forall_mem_append.2 ⟨List.forall_mem_map.2 fun place hplace => ?_,
                List.forall_mem_append.2 ⟨List.forall_mem_map.2 fun place hplace => ?_,
                  List.forall_mem_map.2 fun place hplace => ?_⟩⟩
              · exact visits_all path .any k s (by rw [reachConverted_any, hk]; rfl) place hplace
              · have hvalue := visits_all (path.key kv) .any v mid
                  (by rw [reachConverted_any, hv]; rfl) place hplace
                rwa [visitEntries?, hk, Option.bind_some]
              · rw [visitEntries?_shift, hk, Option.bind_some]
                dsimp only
                rw [hv, Option.bind_some]
                exact visitsEntries_all path es mid' h place hplace

end

/-! ### The order of the visits -/

/-- If the second place is visited, the first one has been: it has been gone into if the second one
lies in it, and has got its value otherwise. -/
def InOrder (r : Resolver σ) (visit? : List Nat → Option (Visit σ)) (first second : List Nat) :
    Prop :=
  (visit? second).isSome →
    (visit? first).any fun v => if first.isPrefixOf second then r.opens v else r.succeeds v

theorem InOrder.congr {visit? visit?' : List Nat → Option (Visit σ)}
    {first second first' second' : List Nat} (h : r.InOrder visit? first second)
    (hfirst : visit?' first' = visit? first) (hsecond : visit?' second' = visit? second)
    (hbelow : first'.isPrefixOf second' = first.isPrefixOf second) :
    r.InOrder visit?' first' second' := by
  rw [InOrder, hfirst, hsecond, hbelow]
  exact h

/-- Places apart from each other: the first one has got its value before the second is visited. -/
theorem InOrder.of_succeeds {visit? : List Nat → Option (Visit σ)} {first second : List Nat}
    (apart : first.isPrefixOf second = false)
    (h : (visit? second).isSome → (visit? first).any r.succeeds) :
    r.InOrder visit? first second := by
  rw [InOrder, apart]
  exact h

theorem isPrefixOf_shift : ∀ first second : List Nat,
    (Raw.shift first).isPrefixOf (Raw.shift second) = first.isPrefixOf second
  | [], [] | [], _ :: _ | _ :: _, [] => rfl
  | i :: _, j :: _ => by
      rw [Raw.shift, Raw.shift, List.isPrefixOf, List.isPrefixOf]
      congr 1
      exact Bool.eq_iff_iff.2 (by simp)

theorem not_isPrefixOf_shift (first : List Nat) : ∀ second : List Nat,
    (0 :: first).isPrefixOf (Raw.shift second) = false
  | [] => rfl
  | _ :: _ => rfl

/-- What is visited once there is a result is visited in order. -/
theorem pairwise_bind {α : Type} {x : Option α} {visit? : α → List Nat → Option (Visit σ)}
    {places : List (List Nat)} (h : ∀ a, x = some a → places.Pairwise (r.InOrder (visit? a))) :
    places.Pairwise (r.InOrder fun place => x.bind fun a => visit? a place) := by
  cases x with
  | none => exact List.pairwise_of_forall_mem_list fun _ _ _ _ => nofun
  | some a => exact h a rfl

/-- What is visited after an element or an entry is visited in order. -/
theorem pairwise_shift {α : Type} {x : Option α} {visit? : List Nat → Option (Visit σ)}
    {rest? : α → List Nat → Option (Visit σ)} {places : List (List Nat)}
    (hvisit : ∀ place, visit? (Raw.shift place) = x.bind fun a => rest? a place)
    (h : ∀ a, x = some a → places.Pairwise (r.InOrder (rest? a))) :
    (places.map Raw.shift).Pairwise (r.InOrder visit?) :=
  List.pairwise_map.2 ((pairwise_bind h).imp fun {first second} h =>
    h.congr (hvisit first) (hvisit second) (isPrefixOf_shift first second))

/-- A collection is visited before what stands in it. -/
theorem pairwise_root {v : Visit σ} {visit? inside? : List Nat → Option (Visit σ)}
    {places : List (List Nat)} (h : places.Pairwise (r.InOrder inside?))
    (nonempty : ∀ place ∈ places, place ≠ []) (root : visit? [] = some v)
    (hvisit : ∀ i place, visit? (i :: place) = inside? (i :: place))
    (opens : ∀ place, (inside? place).isSome → r.opens v) :
    ([] :: places).Pairwise (r.InOrder visit?) := by
  have inside : ∀ place ∈ places, visit? place = inside? place := fun place hplace => by
    cases place with
    | nil => exact absurd rfl (nonempty [] hplace)
    | cons i place => exact hvisit i place
  refine List.pairwise_cons.2 ⟨fun place hplace visited => ?_, h.imp_of_mem fun hfirst hsecond h =>
    h.congr (inside _ hfirst) (inside _ hsecond) rfl⟩
  rw [root]
  exact opens place (inside place hplace ▸ visited)

theorem visitsProperties_in_order : ∀ (es : List (Literal × Literal)) (s : σ),
    (Raw.placesLiterals es).Pairwise (r.InOrder (r.visitProperties? es s))
  | [], _ => .nil
  | (k, v) :: es, s => by
      have key : (reach (r.evaluateLiteral k) s).isSome →
          (r.visitProperties? ((k, v) :: es) s [0, 0]).any r.succeeds := fun h => h
      refine List.pairwise_cons.2 ⟨List.forall_mem_cons.2 ⟨?_, ?_⟩, List.pairwise_cons.2 ⟨?_, ?_⟩⟩
      · refine .of_succeeds rfl fun visited => key ?_
        rwa [visitProperties?, Option.isSome_map] at visited
      · refine List.forall_mem_map.2 fun place _ =>
          .of_succeeds (not_isPrefixOf_shift _ place) fun visited => key ?_
        rw [visitProperties?_shift] at visited
        exact isSome_of_bind (isSome_of_bind visited)
      · refine List.forall_mem_map.2 fun place _ =>
          .of_succeeds (not_isPrefixOf_shift _ place) fun visited => ?_
        rw [visitProperties?_shift] at visited
        cases hkv : r.reachProperty k v s with
        | none => rw [hkv] at visited; cases visited
        | some entry =>
            obtain ⟨kv, vv, s'⟩ := entry
            exact property_succeeds es hkv
      · exact pairwise_shift (visitProperties?_shift k v es s) fun entry _ =>
          visitsProperties_in_order es entry.2.2

mutual

/-- **Nodes are visited in the order of traversal**, each once those before it have got their
values. -/
theorem visits_in_order (path : ArgPath) (ty : Ty) : ∀ (raw : Raw) (s : σ),
    raw.places.Pairwise (r.InOrder (r.visit? path ty raw s))
  | .null, _ | .literal _, _ | .value _, _ | .reference _, _ | .nameReference _, _
  | .dependency _, _ | .holder _ _ _ _, _ | .nested _ _, _ => List.pairwise_singleton _ _
  | .array typeName remembered es, s =>
      pairwise_root (pairwise_bind (x := (r.elementType path typeName remembered).reach s)
          fun elementTy _ => visitsElements_in_order path elementTy.1 0 es elementTy.2)
        (Raw.ne_nil_of_mem_placesAll es) rfl (fun _ _ => rfl) fun _ => isSome_of_bind
  | .list es, s | .set es, s =>
      pairwise_root (visitsElements_in_order path .any 0 es s) (Raw.ne_nil_of_mem_placesAll es) rfl
        (fun _ _ => rfl) fun _ _ => rfl
  | .map es, s =>
      pairwise_root (visitsEntries_in_order path es s) (Raw.ne_nil_of_mem_placesEntries es) rfl
        (fun _ _ => rfl) fun _ _ => rfl
  | .properties es, s =>
      pairwise_root (visitsProperties_in_order es s) (Raw.ne_nil_of_mem_placesLiterals es) rfl
        (fun _ _ => rfl) fun _ _ => rfl

theorem visitsElements_in_order (path : ArgPath) (ty : Ty) : ∀ (n : Nat) (es : List Raw) (s : σ),
    (Raw.placesAll es).Pairwise (r.InOrder (r.visitElements? path ty n es s))
  | _, [], _ => .nil
  | n, e :: es, s => by
      refine List.pairwise_append.2 ⟨List.pairwise_map.2 ?_, ?_, ?_⟩
      · exact (visits_in_order (path.index n) ty e s).imp fun h => h.congr rfl rfl rfl
      · exact pairwise_shift (visitElements?_shift path ty n e es s) fun v _ =>
          visitsElements_in_order path ty (n + 1) es v.2
      · refine List.forall_mem_map.2 fun first hfirst => List.forall_mem_map.2 fun second _ => ?_
        refine .of_succeeds (not_isPrefixOf_shift _ second) fun visited => ?_
        rw [visitElements?_shift] at visited
        exact visits_all (path.index n) ty e s (isSome_of_bind visited) first hfirst

theorem visitsEntries_in_order (path : ArgPath) : ∀ (es : List (Raw × Raw)) (s : σ),
    (Raw.placesEntries es).Pairwise (r.InOrder (r.visitEntries? path es s))
  | [], _ => .nil
  | (k, v) :: es, s => by
      have key : ∀ {first}, first ∈ k.places → (reach (r.resolve path k) s).isSome →
          (r.visit? path .any k s first).any r.succeeds := fun {first} hfirst h =>
        visits_all path .any k s (by rwa [reachConverted_any]) first hfirst
      refine List.pairwise_append.2 ⟨List.pairwise_map.2 ?_, List.pairwise_append.2
        ⟨List.pairwise_map.2 ?_, ?_, ?_⟩, ?_⟩
      · exact (visits_in_order path .any k s).imp fun h => h.congr rfl rfl rfl
      · exact (pairwise_bind (x := reach (r.resolve path k) s) fun kv _ =>
          visits_in_order (path.key kv.1) .any v kv.2).imp fun h => h.congr rfl rfl rfl
      · refine List.pairwise_map.2 ((pairwise_bind (x := reach (r.resolve path k) s) fun kv _ =>
          pairwise_bind (x := reach (r.resolve (path.key kv.1) v) kv.2) fun vv _ =>
            visitsEntries_in_order path es vv.2).imp fun {first second} h => ?_)
        exact h.congr (visitEntries?_shift path k v es s first)
          (visitEntries?_shift path k v es s second) (isPrefixOf_shift first second)
      · refine List.forall_mem_map.2 fun first hfirst => List.forall_mem_map.2 fun second _ => ?_
        refine .of_succeeds (not_isPrefixOf_shift _ second) fun visited => ?_
        rw [visitEntries?_shift] at visited
        rw [visitEntries?]
        cases hk : reach (r.resolve path k) s with
        | none => rw [hk] at visited; cases visited
        | some key =>
            rw [hk] at visited
            exact visits_all (path.key key.1) .any v key.2
              (by rw [reachConverted_any]; exact isSome_of_bind visited) first hfirst
      · refine List.forall_mem_map.2 fun first hfirst => List.forall_mem_append.2 ⟨?_, ?_⟩
        · refine List.forall_mem_map.2 fun second _ => .of_succeeds rfl fun visited => ?_
          exact key hfirst (isSome_of_bind visited)
        · refine List.forall_mem_map.2 fun second _ =>
            .of_succeeds (not_isPrefixOf_shift _ second) fun visited => ?_
          rw [visitEntries?_shift] at visited
          exact key hfirst (isSome_of_bind visited)

end

end Resolver

end Wiring
