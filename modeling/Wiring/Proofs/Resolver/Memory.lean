import Wiring.Proofs.Resolver.Growth
import Wiring.Proofs.Resolver.Visits
import Wiring.Session.Step

/-!
# Resolver — what a resolution has the raw value remember

A visit of a literal may find that its text is changed by evaluation (`Resolver.alters`), and a
visit of a literal or an array that remembers no type may have it learn one (`Resolver.learns?`):
the one that is loaded (`Resolver.loads?`), or `any` for an array that declares none.

**That is all that a resolution writes, at each node, and nodes that are not visited stay as they
are** (`resolution_writes_once`), whatever the collaborators do and whether the resolution succeeds
or fails.  So over any number of resolutions a type is loaded for a node at most once
(`Turn.loadsAll_cases`).
-/

namespace Wiring

namespace Raw

/-- The type that the node at a place remembers. -/
def rememberedAt (place : List Nat) (raw : Raw) : Option Ty :=
  (raw.at? place).bind remembered?

theorem placesLiterals_of_grows : ∀ {es fs : List (Literal × Literal)}, GrowsLiterals es fs →
    placesLiterals fs = placesLiterals es
  | [], _, h => by cases h; rfl
  | _ :: _, [], h => h.elim
  | _ :: _, _ :: _, ⟨_, _, h⟩ => by
      rw [placesLiterals, placesLiterals, placesLiterals_of_grows h]

mutual

/-- Growth leaves the places as they are. -/
theorem places_of_grows : ∀ {raw left : Raw}, raw.Grows left → left.places = raw.places
  | null, _, h | value _, _, h | reference _, _, h | nameReference _, _, h | dependency _, _, h
  | holder _ _ _ _, _, h | nested _ _, _, h => by cases h; rfl
  | literal _, left, h => by
      cases left with
      | literal _ => rfl
      | _ => exact h.elim
  | array _ _ es, left, h => by
      cases left with
      | array _ _ fs => exact congrArg ([] :: ·) (placesAll_of_grows h.2.2)
      | _ => exact h.elim
  | list es, left, h => by
      cases left with
      | list fs => exact congrArg ([] :: ·) (placesAll_of_grows h)
      | _ => exact h.elim
  | set es, left, h => by
      cases left with
      | set fs => exact congrArg ([] :: ·) (placesAll_of_grows h)
      | _ => exact h.elim
  | map es, left, h => by
      cases left with
      | map fs => exact congrArg ([] :: ·) (placesEntries_of_grows h)
      | _ => exact h.elim
  | properties es, left, h => by
      cases left with
      | properties fs => exact congrArg ([] :: ·) (placesLiterals_of_grows h)
      | _ => exact h.elim

theorem placesAll_of_grows : ∀ {es fs : List Raw}, GrowsAll es fs → placesAll fs = placesAll es
  | [], _, h => by cases h; rfl
  | _ :: _, [], h => h.elim
  | _ :: _, _ :: _, ⟨he, h⟩ => by
      rw [placesAll, placesAll, places_of_grows he, placesAll_of_grows h]

theorem placesEntries_of_grows : ∀ {es fs : List (Raw × Raw)}, GrowsEntries es fs →
    placesEntries fs = placesEntries es
  | [], _, h => by cases h; rfl
  | _ :: _, [], h => h.elim
  | (_, _) :: _, (_, _) :: _, ⟨hk, hv, h⟩ => by
      rw [placesEntries, placesEntries, places_of_grows hk, places_of_grows hv,
        placesEntries_of_grows h]

end

end Raw

namespace Resolver

variable {σ : Type} {r : Resolver σ}

/-! ### What a visit writes -/

/-- The literal's text has a value other than the text itself. -/
def changes (r : Resolver σ) (l : Literal) (s : σ) : Bool :=
  l.text.any fun text => ((r.evaluateText text).reach s).any fun (v, _) => v.string? != some text

/-- The visit finds that evaluation changes the text of a literal. -/
def alters (r : Resolver σ) : Visit σ → Bool
  | .value _ _ (.literal l) s | .key l s | .property _ l s => r.changes l s
  | _ => false

/-- The type that is loaded at the visit. -/
def loads? (r : Resolver σ) (v : Visit σ) : Option Ty :=
  (r.request? v).bind fun (name, s) =>
    ((r.collaborators.loadType name).reach s).map Prod.fst

/-- The type that a literal or an array without one learns at the visit: the one that is loaded, or
`any` for an array that declares none. -/
def learns? (r : Resolver σ) (v : Visit σ) : Option Ty :=
  match v with
  | .value _ _ (.array typeName none _) _ =>
    if (declaredElementType typeName).isNone then some .any else r.loads? v
  | v => r.loads? v

/-- What is left of a node after a visit, or without one. -/
structure Touched (r : Resolver σ) (visit : Option (Visit σ)) (n n' : Raw) : Prop where
  /-- The visit is one of this node. -/
  node {v : Visit σ} (h : visit = some v) : v.node = n
  remembered : n'.remembered? = n.remembered?.or (visit.bind r.learns?)
  dynamic : n'.isDynamic = (n.isDynamic || visit.any r.alters)
  unvisited : visit = none → n' = n

/-- What is left of the node at a place. -/
def TouchedAt (r : Resolver σ) (visit : Option (Visit σ)) (place : List Nat) (raw left : Raw) :
    Prop :=
  ∃ n n', raw.at? place = some n ∧ left.at? place = some n' ∧ r.Touched visit n n'

/-! ### Nodes -/

theorem run_evaluateLiteral {l : Literal} {text : String} (h : l.text = some text) (s : σ) :
    r.evaluateLiteral l s =
      match (r.evaluateText text).run s with
      | (.ok v, s') => (⟨observed l text v, .ok v⟩, s')
      | (.error stop, s') => (⟨l, .error stop⟩, s') := by
  rw [evaluateLiteral, h]
  dsimp only
  rw [state_bind]
  rcases (r.evaluateText text).run s with ⟨stop | v, s'⟩ <;> rfl

theorem observed_eq (l : Literal) (text : String) (v : Value) :
    observed l text v = { l with dynamic := l.dynamic || v.string? != some text } := by
  rw [observed]
  split
  next h => rw [h, bne_self_eq_false, Bool.or_false]
  next h => rw [bne_iff_ne.2 h, Bool.or_true]; rfl

theorem evaluateLiteral_node (l : Literal) (s : σ) :
    (r.evaluateLiteral l s).1.node = { l with dynamic := l.dynamic || r.changes l s } := by
  obtain ⟨text, typeName, target, dynamic⟩ := l
  cases text with
  | none =>
      rw [changes, Option.any_none, Bool.or_false]
      rfl
  | some text =>
      rw [run_evaluateLiteral rfl, changes, Option.any_some]
      rcases h : (r.evaluateText text).run s with ⟨stop | v, mid⟩
      · rw [Action.reach_eq_none h, Option.any_none, Bool.or_false]
      · rw [Action.reach_eq_some h, Option.any_some]
        exact observed_eq _ text v

theorem resolveLiteral_node (path : ArgPath) (ty : Ty) (l : Literal) (s : σ) :
    (r.resolveLiteral path l s).1.node =
      { (r.evaluateLiteral l s).1.node with
        target := l.target.or (r.loads? (.value path ty (.literal l) s)) } := by
  have htarget : (r.evaluateLiteral l s).1.node.target = l.target := by rw [evaluateLiteral_node]
  obtain ⟨text, typeName, target, dynamic⟩ := l
  rw [resolveLiteral, state_bind, loads?, request?]
  rcases he : r.evaluateLiteral ⟨text, typeName, target, dynamic⟩ s with
    ⟨⟨⟨text', typeName', target', dynamic'⟩, stop | v⟩, mid⟩
  · rw [he] at htarget
    obtain rfl : target' = target := htarget
    rw [reach_eq_none he]
    -- without a value, no type is asked for
    cases target' <;> cases typeName <;> rfl
  · rw [he] at htarget
    obtain rfl : target' = target := htarget
    rw [reach_eq_some he]
    dsimp only
    rw [state_bind, targetType]
    match target', typeName with
    | some _, _ => rfl
    | none, none => rfl
    | none, some name =>
        dsimp only
        rw [Option.map_some, Option.bind_some, Action.run_mapError, Action.run_bind]
        dsimp only
        rcases hload : (r.collaborators.loadType name).run mid with ⟨(_ | e) | loaded, mid'⟩
        · rw [Action.reach_eq_none hload]; rfl
        · rw [Action.reach_eq_none hload]; rfl
        · rw [Action.reach_eq_some hload]; rfl

/-- The element type of an array is the one it remembers or learns, if it gets one. -/
theorem reach_elementType (path : ArgPath) (ty : Ty) (typeName : Option String)
    (remembered : Option Ty) (es : List Raw) (s : σ) :
    ((r.elementType path typeName remembered).reach s).map Prod.fst =
      remembered.or (r.learns? (.value path ty (.array typeName remembered es) s)) := by
  cases remembered with
  | some known => rfl
  | none =>
      change _ = (if (declaredElementType typeName).isNone then some Ty.any
        else ((declaredElementType typeName).map fun name => (name, s)).bind fun (name, s) =>
          ((r.collaborators.loadType name).reach s).map Prod.fst)
      unfold elementType
      cases hname : declaredElementType typeName with
      | none => rfl
      | some name => exact congrArg (Option.map Prod.fst) (Action.reach_mapError _ _ s)

theorem node_of_value {path : ArgPath} {ty : Ty} {raw : Raw} {s : σ} {v : Visit σ}
    (h : some (Visit.value path ty raw s) = some v) : v.node = raw := by
  cases h
  rfl

/-- What is left of the node that is resolved. -/
theorem resolve_touched (path : ArgPath) (ty : Ty) : ∀ (raw : Raw) (s : σ),
    r.Touched (some (.value path ty raw s)) raw (r.resolve path raw s).1.node
  | .literal l, s => by
      have hnode : (r.resolve path (.literal l) s).1.node =
          .literal (r.resolveLiteral path l s).1.node := rfl
      rw [hnode, resolveLiteral_node path ty, evaluateLiteral_node]
      exact ⟨node_of_value, rfl, rfl, nofun⟩
  | .array typeName remembered es, s => by
      have htype := reach_elementType (r := r) path ty typeName remembered es s
      rw [resolve, state_bind]
      rcases h : (r.elementType path typeName remembered).run s with ⟨stop | known, mid⟩
      · rw [Action.reach_eq_none h] at htype
        cases remembered with
        | none => exact ⟨node_of_value, htype, rfl, nofun⟩
        | some _ => cases htype
      · rw [Action.reach_eq_some h] at htype
        exact ⟨node_of_value, htype, rfl, nofun⟩
  | .null, _ | .value _, _ | .reference _, _ | .nameReference _, _ | .dependency _, _
  | .holder _ _ _ _, _ | .nested _ _, _ | .list _, _ | .set _, _ | .map _, _ | .properties _, _ =>
      ⟨node_of_value, rfl, rfl, nofun⟩

/-! ### Nodes in collections -/

theorem Touched.refl (n : Raw) : r.Touched none n n :=
  ⟨nofun, (Option.or_none).symm, (Bool.or_false _).symm, fun _ => rfl⟩

theorem TouchedAt.untouched {visit : Option (Visit σ)} {place : List Nat} {raw left : Raw}
    (h : r.TouchedAt visit place raw left) : r.TouchedAt none place raw raw := by
  obtain ⟨n, -, hn, -, -⟩ := h
  exact ⟨n, n, hn, hn, .refl n⟩

/-- A node that is visited once there is a result stays as it is when there is none. -/
theorem TouchedAt.bind {α ρ : Type} {x : Option α} {visit? : α → Option (Visit σ)} {start : ρ}
    {left : α → ρ} {place : List Nat} {raw : Raw} (collection : ρ → Raw)
    (stopped : r.TouchedAt none place raw (collection start))
    (h : ∀ a, r.TouchedAt (visit? a) place raw (collection (left a))) :
    r.TouchedAt (x.bind visit?) place raw (collection (x.elim start left)) := by
  cases x with
  | none => exact stopped
  | some a => exact h a

/-- The elements after one are resolved once it has its value. -/
theorem resolveElements_node_cons (path : ArgPath) (ty : Ty) (n : Nat) (e : Raw) (es : List Raw)
    (s : σ) :
    (r.resolveElements path ty n (e :: es) s).1.node =
      (r.resolve (path.index n) e s).1.node ::
        (r.reachConverted (path.index n) ty e s).elim es fun (_, s) =>
          (r.resolveElements path ty (n + 1) es s).1.node := by
  rw [resolveElements, state_bind, reachConverted]
  rcases he : r.resolve (path.index n) e s with ⟨⟨first, stop | v⟩, mid⟩
  · rw [reach_eq_none he]
    rfl
  · rw [reach_eq_some he, Option.bind_some]
    dsimp only
    rw [state_bind]
    rcases hv : (r.convertElement (path.index n) ty v).run mid with ⟨stop | v', mid'⟩
    · rw [Action.reach_eq_none hv]
      rfl
    · rw [Action.reach_eq_some hv]
      rfl

theorem resolveEntries_node_cons (path : ArgPath) (k v : Raw) (es : List (Raw × Raw)) (s : σ) :
    (r.resolveEntries path ((k, v) :: es) s).1.node =
      ((r.resolve path k s).1.node,
          (reach (r.resolve path k) s).elim v fun (kv, s) =>
            (r.resolve (path.key kv) v s).1.node) ::
        ((reach (r.resolve path k) s).bind fun (kv, s) =>
          reach (r.resolve (path.key kv) v) s).elim es
            fun (_, s) => (r.resolveEntries path es s).1.node := by
  rw [resolveEntries, state_bind]
  rcases hk : r.resolve path k s with ⟨⟨key, stop | kv⟩, mid⟩
  · rw [reach_eq_none hk]
    rfl
  · rw [reach_eq_some hk, Option.bind_some]
    dsimp only
    rw [state_bind]
    rcases hv : r.resolve (path.key kv) v mid with ⟨⟨value, stop | vv⟩, mid'⟩
    · rw [reach_eq_none hv]
      dsimp only [Option.elim]
      rw [hv]
      rfl
    · rw [reach_eq_some hv]
      dsimp only [Option.elim]
      rw [hv]
      rfl

theorem resolveProperties_node_cons (path : ArgPath) (k v : Literal) (es : List (Literal × Literal))
    (s : σ) :
    (r.resolveProperties path ((k, v) :: es) s).1.node =
      ((r.evaluateLiteral k s).1.node,
          (reach (r.evaluateLiteral k) s).elim v fun (_, s) => (r.evaluateLiteral v s).1.node) ::
        (r.reachProperty k v s).elim es
          fun (_, _, s) => (r.resolveProperties path es s).1.node := by
  rw [resolveProperties, state_bind, reachProperty]
  rcases hk : r.evaluateLiteral k s with ⟨⟨key, stop | kv⟩, mid⟩
  · rw [reach_eq_none hk]
    rfl
  · rw [reach_eq_some hk, Option.bind_some]
    dsimp only
    rw [state_bind]
    rcases hv : r.evaluateLiteral v mid with ⟨⟨value, stop | vv⟩, mid'⟩
    · rw [reach_eq_none hv]
      dsimp only [Option.elim]
      rw [hv]
      rfl
    · rw [reach_eq_some hv, Option.bind_some]
      dsimp only [Option.elim]
      rw [hv]
      dsimp only
      split <;> rfl

theorem evaluateLiteral_touched {v : Visit σ} (l : Literal) (s : σ) (node : v.node = .literal l)
    (alters : r.alters v = r.changes l s) (learns : r.learns? v = none) :
    r.Touched (some v) (.literal l) (.literal (r.evaluateLiteral l s).1.node) := by
  rw [evaluateLiteral_node]
  refine ⟨fun h => Option.some.inj h ▸ node, ?_, ?_, nofun⟩
  · rw [Option.bind_some, learns, Option.or_none]
    rfl
  · rw [Option.any_some, alters]
    rfl

theorem resolveProperties_touched (path : ArgPath) : ∀ (es : List (Literal × Literal)) (s : σ),
    ∀ place ∈ Raw.placesLiterals es, r.TouchedAt (r.visitProperties? es s place) place
      (.properties es) (.properties (r.resolveProperties path es s).1.node)
  | [], _ => nofun
  | (k, v) :: es, s => by
      rw [resolveProperties_node_cons]
      refine List.forall_mem_cons.2 ⟨?_, List.forall_mem_cons.2 ⟨?_,
        List.forall_mem_map.2 fun place hplace => ?_⟩⟩
      · exact ⟨.literal k, _, rfl, rfl, evaluateLiteral_touched (v := .key k s) k s rfl rfl rfl⟩
      · rw [visitProperties?]
        cases reach (r.evaluateLiteral k) s with
        | none => exact ⟨.literal v, .literal v, rfl, rfl, .refl _⟩
        | some key =>
            exact ⟨.literal v, _, rfl, rfl,
              evaluateLiteral_touched (v := .property key.1 v key.2) v key.2 rfl rfl rfl⟩
      · have inside := fun s => resolveProperties_touched path es s place hplace
        rw [visitProperties?_shift]
        cases place with
        | nil => exact absurd rfl (Raw.ne_nil_of_mem_placesLiterals es [] hplace)
        | cons i place =>
            have later := TouchedAt.bind (x := r.reachProperty k v s) .properties
              (inside s).untouched fun entry => inside entry.2.2
            exact later

mutual

/-- What is left of each node, visited or not. -/
theorem resolve_touchedAt (path : ArgPath) (ty : Ty) : ∀ (raw : Raw) (s : σ),
    ∀ place ∈ raw.places,
      r.TouchedAt (r.visit? path ty raw s place) place raw (r.resolve path raw s).1.node
  | .list es, s => by
      refine List.forall_mem_cons.2 ⟨⟨_, _, rfl, rfl, resolve_touched path ty _ s⟩,
        fun place hplace => ?_⟩
      have inside := resolveElements_touched path .any 0 es s place hplace
      rw [resolve_list]
      cases place with
      | nil => exact absurd rfl (Raw.ne_nil_of_mem_placesAll es [] hplace)
      | cons i place => exact inside
  | .set es, s => by
      refine List.forall_mem_cons.2 ⟨⟨_, _, rfl, rfl, resolve_touched path ty _ s⟩,
        fun place hplace => ?_⟩
      have inside := resolveElements_touched path .any 0 es s place hplace
      rw [resolve_set]
      cases place with
      | nil => exact absurd rfl (Raw.ne_nil_of_mem_placesAll es [] hplace)
      | cons i place => exact inside
  | .array typeName remembered es, s => by
      refine List.forall_mem_cons.2 ⟨⟨_, _, rfl, rfl, resolve_touched path ty _ s⟩,
        fun place hplace => ?_⟩
      have inside := fun ty s => resolveElements_touched path ty 0 es s place hplace
      cases place with
      | nil => exact absurd rfl (Raw.ne_nil_of_mem_placesAll es [] hplace)
      | cons i place =>
          rw [visit?_array_cons, resolve, state_bind]
          rcases h : (r.elementType path typeName remembered).run s with ⟨stop | known, mid⟩
          · rw [Action.reach_eq_none h]
            exact (inside .any s).untouched
          · rw [Action.reach_eq_some h]
            exact inside known mid
  | .map es, s => by
      refine List.forall_mem_cons.2 ⟨⟨_, _, rfl, rfl, resolve_touched path ty _ s⟩,
        fun place hplace => ?_⟩
      have inside := resolveEntries_touched path es s place hplace
      cases place with
      | nil => exact absurd rfl (Raw.ne_nil_of_mem_placesEntries es [] hplace)
      | cons i place => exact inside
  | .properties es, s => by
      refine List.forall_mem_cons.2 ⟨⟨_, _, rfl, rfl, resolve_touched path ty _ s⟩,
        fun place hplace => ?_⟩
      have inside := resolveProperties_touched (r := r) path es s place hplace
      cases place with
      | nil => exact absurd rfl (Raw.ne_nil_of_mem_placesLiterals es [] hplace)
      | cons i place => exact inside
  | .null, s | .literal _, s | .value _, s | .reference _, s | .nameReference _, s
  | .dependency _, s | .holder _ _ _ _, s | .nested _ _, s =>
      List.forall_mem_singleton.2 ⟨_, _, rfl, rfl, resolve_touched path ty _ s⟩

theorem resolveElements_touched (path : ArgPath) (ty : Ty) : ∀ (n : Nat) (es : List Raw) (s : σ),
    ∀ place ∈ Raw.placesAll es, r.TouchedAt (r.visitElements? path ty n es s place) place
      (.list es) (.list (r.resolveElements path ty n es s).1.node)
  | _, [], _ => nofun
  | n, e :: es, s => by
      rw [resolveElements_node_cons]
      refine List.forall_mem_append.2 ⟨List.forall_mem_map.2 fun place hplace => ?_,
        List.forall_mem_map.2 fun place hplace => ?_⟩
      · exact resolve_touchedAt (path.index n) ty e s place hplace
      · have inside := fun s => resolveElements_touched path ty (n + 1) es s place hplace
        rw [visitElements?_shift]
        cases place with
        | nil => exact absurd rfl (Raw.ne_nil_of_mem_placesAll es [] hplace)
        | cons i place =>
            have later := TouchedAt.bind (x := r.reachConverted (path.index n) ty e s) .list
              (inside s).untouched fun v => inside v.2
            exact later

theorem resolveEntries_touched (path : ArgPath) : ∀ (es : List (Raw × Raw)) (s : σ),
    ∀ place ∈ Raw.placesEntries es, r.TouchedAt (r.visitEntries? path es s place) place
      (.map es) (.map (r.resolveEntries path es s).1.node)
  | [], _ => nofun
  | (k, v) :: es, s => by
      rw [resolveEntries_node_cons]
      refine List.forall_mem_append.2 ⟨List.forall_mem_map.2 fun place hplace => ?_,
        List.forall_mem_append.2 ⟨List.forall_mem_map.2 fun place hplace => ?_,
          List.forall_mem_map.2 fun place hplace => ?_⟩⟩
      · exact resolve_touchedAt path .any k s place hplace
      · have inside := fun (path : ArgPath) (s : σ) =>
          resolve_touchedAt path .any v s place hplace
        have later := TouchedAt.bind (x := reach (r.resolve path k) s) (fun value => value)
          (inside path s).untouched fun kv => inside (path.key kv.1) kv.2
        exact later
      · have inside := fun s => resolveEntries_touched path es s place hplace
        rw [visitEntries?_shift]
        match place with
        | [] => exact absurd rfl (Raw.ne_nil_of_mem_placesEntries es [] hplace)
        | [i] =>
            obtain ⟨_, _, hn, -⟩ := inside s
            cases hn
        | i :: j :: place =>
            cases reach (r.resolve path k) s with
            | none => exact (inside s).untouched
            | some kv =>
                have later := TouchedAt.bind (x := reach (r.resolve (path.key kv.1) v) kv.2) .map
                  (inside s).untouched fun vv => inside vv.2
                exact later

end

/-! ### Several resolutions -/

/-- No type is loaded for a node that remembers one. -/
theorem loads?_of_remembered {v : Visit σ} {ty : Ty} (h : v.node.remembered? = some ty) :
    r.loads? v = none := by
  cases v with
  | value path target raw s =>
      cases raw with
      | literal l =>
          have htarget : l.target = some ty := h
          rw [loads?, request?, htarget]
          rfl
      | array typeName remembered es =>
          obtain rfl : remembered = some ty := h
          rfl
      | _ => cases h
  | key l s => rfl
  | property key l s => rfl

/-- A type that is loaded is learned. -/
theorem learns?_of_loads {v : Visit σ} {ty : Ty} (h : r.loads? v = some ty) :
    r.learns? v = some ty := by
  unfold learns?
  split
  next path target typeName es s =>
    -- what is loaded is declared
    cases hname : declaredElementType typeName with
    | none =>
        rw [loads?, request?, hname] at h
        cases h
    | some name => exact h
  next => exact h

end Resolver

/-- A resolution of a raw value: the resolver, the argument path, and the state it starts from. -/
structure Turn where
  σ : Type
  resolver : Resolver σ
  path : ArgPath
  state : σ

namespace Turn

/-- What is left of the raw value. -/
def left (t : Turn) (raw : Raw) : Raw :=
  (t.resolver.resolve t.path raw t.state).1.node

/-- The type loaded for the node at a place. -/
def loads? (t : Turn) (raw : Raw) (place : List Nat) : Option Ty :=
  (t.resolver.visit? t.path .any raw t.state place).bind t.resolver.loads?

/-- What is left of the raw value after one resolution after the other. -/
def leftAll (turns : List Turn) (raw : Raw) : Raw :=
  turns.foldl (fun raw t => t.left raw) raw

/-- The types loaded for the node at a place, one resolution after the other. -/
def loadsAll : List Turn → Raw → List Nat → List Ty
  | [], _, _ => []
  | t :: turns, raw, place => (t.loads? raw place).toList ++ loadsAll turns (t.left raw) place

/-! ### Types are learned once -/

variable {t : Turn} {raw : Raw} {place : List Nat} {ty : Ty}

theorem places_left (t : Turn) (raw : Raw) : (t.left raw).places = raw.places :=
  Raw.places_of_grows (t.resolver.resolve_grows t.path raw t.state)

/-- No type is loaded for a node that remembers one. -/
theorem loads?_of_rememberedAt (hplace : place ∈ raw.places)
    (h : raw.rememberedAt place = some ty) : t.loads? raw place = none := by
  obtain ⟨n, _, hn, _, touched⟩ :=
    t.resolver.resolve_touchedAt t.path .any raw t.state place hplace
  rw [Raw.rememberedAt, hn, Option.bind_some] at h
  rw [loads?]
  cases hvisit : t.resolver.visit? t.path .any raw t.state place with
  | none => rfl
  | some v =>
      rw [Option.bind_some]
      exact Resolver.loads?_of_remembered (touched.node hvisit ▸ h)

theorem rememberedAt_left (hplace : place ∈ raw.places) :
    (t.left raw).rememberedAt place = (raw.rememberedAt place).or
      ((t.resolver.visit? t.path .any raw t.state place).bind t.resolver.learns?) := by
  obtain ⟨n, n', hn, hn', touched⟩ :=
    t.resolver.resolve_touchedAt t.path .any raw t.state place hplace
  rw [Raw.rememberedAt, Raw.rememberedAt, hn, left, hn']
  exact touched.remembered

/-- A type that is loaded is remembered. -/
theorem rememberedAt_of_loads (hplace : place ∈ raw.places) (h : t.loads? raw place = some ty) :
    (t.left raw).rememberedAt place = some ty := by
  rw [rememberedAt_left hplace]
  cases hknown : raw.rememberedAt place with
  | some known =>
      rw [loads?_of_rememberedAt hplace hknown] at h
      cases h
  | none =>
      obtain ⟨v, hvisit, hv⟩ := Option.bind_eq_some_iff.1 h
      rw [hvisit, Option.none_or, Option.bind_some]
      exact Resolver.learns?_of_loads hv

/-- What a node remembers is remembered for good, and no type is loaded for it any more. -/
theorem rememberedAt_leftAll : ∀ (turns : List Turn) {raw : Raw}, place ∈ raw.places →
    raw.rememberedAt place = some ty →
      loadsAll turns raw place = [] ∧ (leftAll turns raw).rememberedAt place = some ty
  | [], _, _, h => ⟨rfl, h⟩
  | t :: turns, raw, hplace, h => by
      have hleft : (t.left raw).rememberedAt place = some ty := by
        rw [rememberedAt_left hplace, h, Option.some_or]
      obtain ⟨loads, remembered⟩ :=
        rememberedAt_leftAll turns (places_left t raw ▸ hplace) hleft
      rw [loadsAll, loads?_of_rememberedAt hplace h, loads]
      exact ⟨rfl, remembered⟩

/-- A type is loaded for a node at most once, and remembered from then on. -/
theorem loadsAll_cases : ∀ (turns : List Turn) {raw : Raw}, place ∈ raw.places →
    loadsAll turns raw place = [] ∨
      ∃ ty, loadsAll turns raw place = [ty] ∧ (leftAll turns raw).rememberedAt place = some ty
  | [], _, _ => .inl rfl
  | t :: turns, raw, hplace => by
      have hplace' : place ∈ (t.left raw).places := places_left t raw ▸ hplace
      rw [loadsAll]
      cases hload : t.loads? raw place with
      | none => exact loadsAll_cases turns hplace'
      | some ty =>
          obtain ⟨loads, remembered⟩ :=
            rememberedAt_leftAll turns hplace' (rememberedAt_of_loads hplace hload)
          rw [loads]
          exact .inr ⟨ty, rfl, remembered⟩

end Turn

namespace Resolver

/-- **What resolution writes.**  From any state and with any collaborators, and whether it succeeds
or fails, a resolution leaves the raw value with no change but these: a node that is visited
remembers the type it learns there if it remembers none, and is dynamic if evaluation changes its
text; a node that is not visited stays as it is.  Nodes are visited in the order of traversal, each
once those before it have got their values.

So over any number of resolutions of the raw value, with whatever resolvers, argument paths and
states, a type is loaded for a node at most once; it is remembered from then on, and none is loaded
for a node that remembers one. -/
theorem resolution_writes_once (r : Resolver σ) (path : ArgPath) (raw : Raw) (s : σ) :
    let left := (r.resolve path raw s).1.node
    let visit? := r.visit? path .any raw s
    raw.Grows left ∧
      (∀ place ∈ raw.places, ∃ n n', raw.at? place = some n ∧ left.at? place = some n' ∧
        n'.remembered? = n.remembered?.or ((visit? place).bind r.learns?) ∧
        n'.isDynamic = (n.isDynamic || (visit? place).any r.alters) ∧
        (visit? place = none → n' = n)) ∧
      raw.places.Pairwise (r.InOrder visit?) ∧
      ∀ (turns : List Turn), ∀ place ∈ raw.places,
        (Turn.loadsAll turns raw place).length ≤ 1 ∧
        (∀ ty ∈ Turn.loadsAll turns raw place,
          (Turn.leftAll turns raw).rememberedAt place = some ty) ∧
        ∀ ty, raw.rememberedAt place = some ty →
          Turn.loadsAll turns raw place = [] ∧
            (Turn.leftAll turns raw).rememberedAt place = some ty := by
  refine ⟨resolve_grows path raw s, fun place hplace => ?_, visits_in_order path .any raw s,
    fun turns place hplace => ⟨?_, ?_, fun ty => Turn.rememberedAt_leftAll turns hplace⟩⟩
  · obtain ⟨n, n', hn, hn', touched⟩ := r.resolve_touchedAt path .any raw s place hplace
    exact ⟨n, n', hn, hn', touched.remembered, touched.dynamic, touched.unvisited⟩
  · rcases Turn.loadsAll_cases turns hplace with h | ⟨ty, h, -⟩
    · rw [h]; exact Nat.zero_le 1
    · rw [h]; exact Nat.le_refl 1
  · intro ty hty
    rcases Turn.loadsAll_cases turns hplace with h | ⟨loaded, h, remembered⟩
    · rw [h] at hty; cases hty
    · rw [h] at hty
      rw [List.mem_singleton.1 hty]
      exact remembered

/-- The second element cannot be evaluated: the first has learned its type, the third has not. -/
example :
    let r : Resolver Chain := {
      collaborators := Chain.collaborators (Chain.create 0)
      bean := "owner"
      blueprint := {
        id := 1, className := some "O", scope := .singleton, dependsOn := [], synthetic := false
        resource := none, args := [], properties := [] } }
    let number (text : String) : Raw := .literal { text := some text, typeName := some "int" }
    let raw : Raw := .list [number "1", number "${k}", number "2"]
    let left := (r.resolve (.root "p") raw ⟨{ id := "main" }, []⟩).1.node
    left.rememberedAt [0] = some .int ∧ left.rememberedAt [1] = none ∧
      left.rememberedAt [2] = none := by
  decide +kernel

end Resolver

end Wiring
