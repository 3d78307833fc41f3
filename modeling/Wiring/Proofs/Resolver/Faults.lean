import Wiring.Proofs.Resolver.Attribution
import Wiring.Proofs.Resolver.Values

/-!
# Resolver — where a resolution fails

A node fails by a step of its own (`Resolver.Fault`): a text of it that does not evaluate, a bean
that cannot be had, a type that does not load, a value that does not convert.  `Raw.PathTo` tells
the argument path of a node by the positions and the keys it stands under.

**A resolution fails exactly when a node does, with the error of the first node that fails, at the
path of that node** (`error_iff_first_fault`).
-/

namespace Wiring

variable {σ : Type}

namespace Raw

/-- The elements of an array, a list or a set. -/
def elements? : Raw → Option (List Raw)
  | array _ _ es | list es | set es => some es
  | _ => none

/-- The texts that are evaluated for the value of a node itself. -/
def texts : Raw → List String
  | literal l => l.text.toList
  | value (.string text) => [text]
  | value (.stringArray items) => items
  | nameReference name => [name]
  | _ => []

/-- The argument path of the node at a place, for a raw value at a path: an element adds its
position, the value of a map's entry adds the value its key has got, and a key adds nothing.
`valueAt` tells the values that nodes have got. -/
inductive PathTo : (valueAt : List Nat → Option Value) → Raw → ArgPath → List Nat → ArgPath → Prop
  | here {valueAt : List Nat → Option Value} {raw : Raw} {path : ArgPath} :
    PathTo valueAt raw path [] path
  | element {valueAt : List Nat → Option Value} {raw e : Raw} {es : List Raw} {path p : ArgPath}
    {i : Nat} {place : List Nat} (elements : raw.elements? = some es) (element : es[i]? = some e)
    (rest : PathTo (fun place => valueAt (i :: place)) e (path.index i) place p) :
    PathTo valueAt raw path (i :: place) p
  | key {valueAt : List Nat → Option Value} {k v : Raw} {es : List (Raw × Raw)} {path p : ArgPath}
    {i : Nat} {place : List Nat} (entry : es[i]? = some (k, v))
    (rest : PathTo (fun place => valueAt (i :: 0 :: place)) k path place p) :
    PathTo valueAt (.map es) path (i :: 0 :: place) p
  | value {valueAt : List Nat → Option Value} {k v : Raw} {es : List (Raw × Raw)}
    {path p : ArgPath} {i : Nat} {place : List Nat} {kv : Value} (entry : es[i]? = some (k, v))
    (key : valueAt [i, 0] = some kv)
    (rest : PathTo (fun place => valueAt (i :: 1 :: place)) v (path.key kv) place p) :
    PathTo valueAt (.map es) path (i :: 1 :: place) p
  | property {valueAt : List Nat → Option Value} {es : List (Literal × Literal)} {path : ArgPath}
    {i j : Nat} (entry : i < es.length) : PathTo valueAt (.properties es) path [i, j] path

/-- The entries of a map are moved on by another one before them. -/
theorem PathTo.shift {valueAt valueAt' : List Nat → Option Value} {entry : Raw × Raw}
    {es : List (Raw × Raw)} {path p : ArgPath} {i : Nat} {place : List Nat}
    (h : PathTo valueAt (.map es) path (i :: place) p)
    (same : ∀ i place, valueAt' ((i + 1) :: place) = valueAt (i :: place)) :
    PathTo valueAt' (.map (entry :: es)) path ((i + 1) :: place) p := by
  cases h with
  | element elements => cases elements
  | @key _ _ _ _ _ _ _ place found rest =>
      refine .key found ?_
      rwa [funext fun place => same i (0 :: place)]
  | @value _ _ _ _ _ _ _ place kv found key rest =>
      refine .value found ((same i [0]).trans key) ?_
      rwa [funext fun place => same i (1 :: place)]

end Raw

namespace Visit

/-- The state the node is come to in. -/
def state : Visit σ → σ
  | value _ _ _ s | key _ s | property _ _ s => s

/-- The node is come to with the path, if it is come to with one. -/
def At (p : ArgPath) : Visit σ → Prop
  | value path _ _ _ => path = p
  | _ => True

end Visit

namespace Resolver

open Wiring.Action (valueOf)

/-- A visited node fails by a step of its own, with the error; `p` is its path. -/
inductive Fault (r : Resolver σ) (p : ArgPath) : Visit σ → Error → Prop
  /-- A text does not evaluate.  The error is passed on. -/
  | evaluation {v : Visit σ} {e : Error}
    (failed : (v.node.texts.mapM r.evaluateText).error? v.state = some e) : Fault r p v e
  /-- Nothing can be chosen for an injection point.  The error is passed on. -/
  | dependency {ty : Ty} {d : Dependency} {s : σ} {e : Error}
    (failed : (r.collaborators.resolveDependency d r.bean).error? s = some e) :
    Fault r p (.value p ty (.dependency d) s) e
  /-- The type of a literal does not load. -/
  | literalType {ty : Ty} {l : Literal} {s s' : σ} {v : Value} {source : Error}
    (evaluated : reach (r.evaluateLiteral l) s = some (v, s'))
    (failed : (r.targetType l).error? s' = some source) :
    Fault r p (.value p ty (.literal l) s) (.typedValue (r.site p) source)
  /-- The value of a literal does not convert into its type. -/
  | literal {ty target : Ty} {l : Literal} {s s' s'' : σ} {v : Value} {source : Error}
    (evaluated : reach (r.evaluateLiteral l) s = some (v, s'))
    (typed : (r.targetType l).reach s' = some (some target, s''))
    (failed : (r.collaborators.coerce v target).error? s'' = some source) :
    Fault r p (.value p ty (.literal l) s) (.typedValue (r.site p) source)
  /-- A key or a value of properties is null. -/
  | nullProperty {ty : Ty} {es : List (Literal × Literal)} {s s' s'' : σ} {i : Nat} {l : Literal}
    {kv vv : Value} (visited : r.visitProperties? es s [i, 1] = some (.property kv l s'))
    (evaluated : reach (r.evaluateLiteral l) s' = some (vv, s''))
    (null : kv.isNull ∨ vv.isNull) :
    Fault r p (.value p ty (.properties es) s) (.nullProperty (r.site p))
  /-- A bean is to be looked up in the parent container, and there is none. -/
  | noParent {ty : Ty} {ref : Reference} {s s' : σ} (up : ref.inParent = true)
    (missing : r.collaborators.parent s = (none, s')) :
    Fault r p (.value p ty (.reference ref) s) (.noParent (r.site p) ref.text)
  /-- A bean cannot be had in the parent container. -/
  | referenceAbove {ty : Ty} {ref : Reference} {s s' : σ} {parent : Lookup σ} {source : Error}
    (up : ref.inParent = true) (above : r.collaborators.parent s = (some parent, s'))
    (failed : (r.lookUpInParent parent ref).error? s' = some source) :
    Fault r p (.value p ty (.reference ref) s) (.reference (r.site p) ref.declaredName source)
  /-- A bean cannot be had in this container. -/
  | reference {ty : Ty} {ref : Reference} {s : σ} {source : Error} (here : ref.inParent = false)
    (failed : (r.findHere ref).error? s = some source) :
    Fault r p (.value p ty (.reference ref) s) (.reference (r.site p) ref.declaredName source)
  /-- No bean has the name. -/
  | nameReference {ty : Ty} {name actual : String} {s s' : σ}
    (evaluated : (r.evaluateName name).reach s = some (actual, s'))
    (unknown : (r.collaborators.containsBean actual s').1 = false) :
    Fault r p (.value p ty (.nameReference name) s) (.invalidReference (r.site p) actual)
  /-- A nested blueprint does not merge. -/
  | merge {ty : Ty} {raw : Raw} {proposed : String} {b : Blueprint} {s : σ} {source : Error}
    (inner : r.inner? raw = some (proposed, b))
    (failed : (r.collaborators.mergeBlueprint proposed b r.blueprint).error? s = some source) :
    Fault r p (.value p ty raw s) (.innerBean (r.site p) proposed none source)
  /-- The object of a nested blueprint cannot be made. -/
  | inner {ty : Ty} {raw : Raw} {proposed inner : String} {b merged : Blueprint} {s s' s'' : σ}
    {source : Error} (nested : r.inner? raw = some (proposed, b))
    (merges : (r.collaborators.mergeBlueprint proposed b r.blueprint).reach s = some (merged, s'))
    (named : (r.innerName proposed merged).reach s' = some (inner, s''))
    (failed : (r.createInner inner merged).error? s'' = some source) :
    Fault r p (.value p ty raw s) (.innerBean (r.site p) inner merged.className source)
  /-- The declared element type of an array does not load. -/
  | elementType {ty : Ty} {typeName : Option String} {name : String} {es : List Raw} {s : σ}
    {source : Error} (declared : declaredElementType typeName = some name)
    (failed : (r.collaborators.loadType name).error? s = some source) :
    Fault r p (.value p ty (.array typeName none es) s) (.elementType (r.site p) source)
  /-- An element has a value that does not convert into the element type. -/
  | element {ty : Ty} {raw : Raw} {s s' : σ} {v : Value} {source : Error} (typed : ty.isAny = false)
    (reached : reach (r.resolve p raw) s = some (v, s'))
    (failed : (r.collaborators.coerce v ty).error? s' = some source) :
    Fault r p (.value p ty raw s) (.typedValue (r.site p) source)

variable {r : Resolver σ} {path p q : ArgPath} {s : σ} {e : Error}

/-- A fault belongs to the path its node is come to with. -/
theorem Fault.at {v : Visit σ} (h : r.Fault q v e) (at_p : v.At p) : r.Fault p v e := by
  cases h with
  | evaluation failed => exact .evaluation failed
  | dependency failed => cases at_p; exact .dependency failed
  | literalType evaluated failed => cases at_p; exact .literalType evaluated failed
  | literal evaluated typed failed => cases at_p; exact .literal evaluated typed failed
  | nullProperty visited evaluated null => cases at_p; exact .nullProperty visited evaluated null
  | noParent up missing => cases at_p; exact .noParent up missing
  | referenceAbove up above failed => cases at_p; exact .referenceAbove up above failed
  | reference here failed => cases at_p; exact .reference here failed
  | nameReference evaluated unknown => cases at_p; exact .nameReference evaluated unknown
  | merge inner failed => cases at_p; exact .merge inner failed
  | inner nested merges named failed => cases at_p; exact .inner nested merges named failed
  | elementType declared failed => cases at_p; exact .elementType declared failed
  | element typed reached failed => cases at_p; exact .element typed reached failed

/-! ### Paths -/

/-- The value that a visited node has got. -/
def got? (r : Resolver σ) : Visit σ → Option Value
  | .value path _ raw s => (reach (r.resolve path raw) s).map Prod.fst
  | .key l s | .property _ l s => (reach (r.evaluateLiteral l) s).map Prod.fst

/-- The values that the nodes of a raw value get at a path, from a state. -/
def valueAt (r : Resolver σ) (path : ArgPath) (ty : Ty) (raw : Raw) (s : σ) (place : List Nat) :
    Option Value :=
  (r.visit? path ty raw s place).bind r.got?

theorem lt_of_visitProperties? : ∀ {es : List (Literal × Literal)} {s : σ} {place : List Nat}
    {v : Visit σ}, r.visitProperties? es s place = some v →
      ∃ i j, place = [i, j] ∧ i < es.length ∧ v.At p
  | [], _, _, _, h => by cases h
  | (k, l) :: es, s, place, v, h => by
      match place, h with
      | [0, 0], h => cases h; exact ⟨0, 0, rfl, Nat.succ_pos _, trivial⟩
      | [0, 1], h =>
          obtain ⟨kv, -, rfl⟩ := Option.map_eq_some_iff.1 h
          exact ⟨0, 1, rfl, Nat.succ_pos _, trivial⟩
      | (i + 1) :: place, h =>
          obtain ⟨entry, -, h⟩ := Option.bind_eq_some_iff.1 h
          obtain ⟨i', j, hplace, hi, at_p⟩ := lt_of_visitProperties? h
          cases hplace
          exact ⟨i + 1, j, rfl, Nat.succ_lt_succ hi, at_p⟩

mutual

/-- A node is come to with the path of its place. -/
theorem pathTo_visit (path : ArgPath) (ty : Ty) : ∀ (raw : Raw) (s : σ) {place : List Nat}
    {v : Visit σ}, r.visit? path ty raw s place = some v →
      ∃ p, raw.PathTo (r.valueAt path ty raw s) path place p ∧ v.At p
  | .null, _, place, _, h | .literal _, _, place, _, h | .value _, _, place, _, h
  | .reference _, _, place, _, h | .nameReference _, _, place, _, h
  | .dependency _, _, place, _, h | .holder _ _ _ _, _, place, _, h
  | .nested _ _, _, place, _, h => by
      cases place with
      | nil => cases h; exact ⟨path, .here, rfl⟩
      | cons i place => cases h
  | .array typeName remembered es, s, place, v, h => by
      cases place with
      | nil => cases h; exact ⟨path, .here, rfl⟩
      | cons i place =>
          rw [visit?_array_cons] at h
          obtain ⟨⟨elementTy, mid⟩, hty, h⟩ := Option.bind_eq_some_iff.1 h
          obtain ⟨e, p, he, hp, at_p⟩ := pathTo_visitElements path elementTy 0 es mid h
          have same :
              (fun place => r.valueAt path ty (.array typeName remembered es) s (i :: place)) =
                fun place =>
                  (r.visitElements? path elementTy 0 es mid (i :: place)).bind r.got? := by
            funext place
            rw [valueAt, visit?_array_cons, hty, Option.bind_some]
          rw [Nat.zero_add] at hp
          exact ⟨p, .element rfl he (same ▸ hp), at_p⟩
  | .list es, s, place, v, h | .set es, s, place, v, h => by
      cases place with
      | nil => cases h; exact ⟨path, .here, rfl⟩
      | cons i place =>
          obtain ⟨e, p, he, hp, at_p⟩ := pathTo_visitElements path .any 0 es s h
          rw [Nat.zero_add] at hp
          exact ⟨p, .element rfl he hp, at_p⟩
  | .map es, s, place, v, h => by
      cases place with
      | nil => cases h; exact ⟨path, .here, rfl⟩
      | cons i place => exact pathTo_visitEntries path es s _ (fun _ _ => rfl) h
  | .properties es, s, place, v, h => by
      cases place with
      | nil => cases h; exact ⟨path, .here, rfl⟩
      | cons i place =>
          obtain ⟨i', j, hplace, hi, at_p⟩ := lt_of_visitProperties? h
          cases hplace
          exact ⟨path, .property hi, at_p⟩

theorem pathTo_visitElements (path : ArgPath) (ty : Ty) : ∀ (n : Nat) (es : List Raw) (s : σ)
    {i : Nat} {place : List Nat} {v : Visit σ},
    r.visitElements? path ty n es s (i :: place) = some v →
      ∃ e p, es[i]? = some e ∧
        e.PathTo (fun place => (r.visitElements? path ty n es s (i :: place)).bind r.got?)
          (path.index (n + i)) place p ∧ v.At p
  | _, [], _, _, _, _, h => by cases h
  | n, e :: es, s, 0, place, v, h => by
      obtain ⟨p, hp, at_p⟩ := pathTo_visit (path.index n) ty e s h
      exact ⟨e, p, rfl, hp, at_p⟩
  | n, e :: es, s, i + 1, place, v, h => by
      obtain ⟨⟨_, mid⟩, he, h⟩ := Option.bind_eq_some_iff.1 h
      obtain ⟨e', p, he', hp, at_p⟩ := pathTo_visitElements path ty (n + 1) es mid h
      have same :
          (fun place => (r.visitElements? path ty n (e :: es) s ((i + 1) :: place)).bind r.got?) =
            fun place => (r.visitElements? path ty (n + 1) es mid (i :: place)).bind r.got? := by
        funext place
        rw [visitElements?, he, Option.bind_some]
      rw [Nat.add_right_comm] at hp
      exact ⟨e', p, he', same ▸ hp, at_p⟩

-- `valueAt` tells the values of the whole map; it is that of the entries everywhere but at the map.
theorem pathTo_visitEntries (path : ArgPath) : ∀ (es : List (Raw × Raw)) (s : σ)
    (valueAt : List Nat → Option Value) {i : Nat} {place : List Nat} {v : Visit σ},
    (∀ i place, valueAt (i :: place) = (r.visitEntries? path es s (i :: place)).bind r.got?) →
      r.visitEntries? path es s (i :: place) = some v →
        ∃ p, (Raw.map es).PathTo valueAt path (i :: place) p ∧ v.At p
  | [], _, _, _, _, _, _, h => by cases h
  | (k, w) :: es, s, valueAt, 0, 0 :: place, v, known, h => by
      obtain ⟨p, hp, at_p⟩ := pathTo_visit path .any k s h
      refine ⟨p, .key rfl ?_, at_p⟩
      rwa [funext fun place => known 0 (0 :: place)]
  | (k, w) :: es, s, valueAt, 0, 1 :: place, v, known, h => by
      obtain ⟨⟨kv, mid⟩, hk, h⟩ := Option.bind_eq_some_iff.1 h
      obtain ⟨p, hp, at_p⟩ := pathTo_visit (path.key kv) .any w mid h
      have key : valueAt [0, 0] = some kv := by
        rw [known]
        cases k <;> exact congrArg (Option.map Prod.fst) hk
      refine ⟨p, .value rfl key ?_, at_p⟩
      have same :
          (fun place => valueAt (0 :: 1 :: place)) = r.valueAt (path.key kv) .any w mid := by
        funext place
        rw [known, visitEntries?, hk, Option.bind_some, Resolver.valueAt]
      rwa [same]
  | (k, w) :: es, s, valueAt, i + 1, place, v, known, h => by
      obtain ⟨⟨kv, mid⟩, hk, h⟩ := Option.bind_eq_some_iff.1 h
      obtain ⟨⟨vv, mid'⟩, hv, h⟩ := Option.bind_eq_some_iff.1 h
      obtain ⟨p, hp, at_p⟩ := pathTo_visitEntries path es mid'
        (fun place => (r.visitEntries? path es mid' place).bind r.got?) (fun _ _ => rfl) h
      refine ⟨p, hp.shift fun i place => ?_, at_p⟩
      rw [known, visitEntries?, hk, Option.bind_some]
      dsimp only
      rw [hv, Option.bind_some]

end

/-! ### A node that fails -/

theorem error?_of_texts {raw : Raw} (failed : (raw.texts.mapM r.evaluateText).error? s = some e)
    (path : ArgPath) : (valueOf (r.resolve path raw)).error? s = some e := by
  cases raw with
  | literal l =>
      have evaluated := error?_evaluateLiteral.2 failed
      change (valueOf (r.resolveLiteral path l)).error? s = some e
      rw [valueOf_resolveLiteral]
      exact Action.error?_bind_left evaluated
  | value v =>
      change (r.resolveValue v).error? s = some e
      cases v with
      | string text => exact Action.error?_mapM_singleton.1 failed
      | stringArray items => exact Action.error?_map.2 failed
      | _ => cases failed
  | nameReference name =>
      have evaluated := Action.error?_mapM_singleton.1 failed
      exact Action.error?_bind_left (Action.error?_map.2 evaluated)
  | _ => cases failed

/-- What an entry of properties leads to, the entries after it lead to. -/
theorem error?_resolveProperties_rest {k v : Literal} {es : List (Literal × Literal)} {mid : σ}
    {kv vv : Value} (entry : r.reachProperty k v s = some (kv, vv, mid))
    (failed : (valueOf (r.resolveProperties path es)).error? mid = some e) :
    (valueOf (r.resolveProperties path ((k, v) :: es))).error? s = some e := by
  obtain ⟨s', hk, hv, notNull⟩ := exists_of_reachProperty entry
  rw [valueOf_resolveProperties_cons]
  refine Action.error?_bind_right hk (Action.error?_bind_right hv ?_)
  rw [notNull, if_neg Bool.false_ne_true]
  exact Action.error?_map.2 failed

theorem error?_of_null : ∀ {es : List (Literal × Literal)} {s s' s'' : σ} {i : Nat} {l : Literal}
    {kv vv : Value}, r.visitProperties? es s [i, 1] = some (.property kv l s') →
      reach (r.evaluateLiteral l) s' = some (vv, s'') → kv.isNull ∨ vv.isNull →
        (valueOf (r.resolveProperties path es)).error? s = some (.nullProperty (r.site path))
  | [], _, _, _, _, _, _, _, visited, _, _ => by cases visited
  | (k, v) :: es, s, s', s'', 0, l, kv, vv, visited, evaluated, null => by
      obtain ⟨⟨kv', mid⟩, hk, hvisit⟩ := Option.map_eq_some_iff.1 visited
      cases hvisit
      rw [valueOf_resolveProperties_cons]
      refine Action.error?_bind_right hk (Action.error?_bind_right evaluated ?_)
      rw [if_pos (by rwa [Bool.or_eq_true])]
      rfl
  | (k, v) :: es, s, s', s'', i + 1, l, kv, vv, visited, evaluated, null => by
      obtain ⟨⟨_, _, mid⟩, entry, visited⟩ := Option.bind_eq_some_iff.1 visited
      exact error?_resolveProperties_rest entry (error?_of_null visited evaluated null)

/-- A key or a value that fails is in the way of the properties. -/
theorem error?_properties_of_fault {es : List (Literal × Literal)} {s : σ} {place : List Nat}
    {v : Visit σ} (visited : r.visitProperties? es s place = some v) (fault : r.Fault p v e) :
    (valueOf (r.resolveProperties path es)).error? s = some e := by
  fun_induction r.visitProperties? es s place with
  | case1 k l es s =>
      cases visited
      obtain ⟨failed⟩ := fault
      rw [valueOf_resolveProperties_cons]
      exact Action.error?_bind_left (error?_evaluateLiteral.2 failed)
  | case2 k l es s =>
      obtain ⟨⟨kv, mid⟩, hk, rfl⟩ := Option.map_eq_some_iff.1 visited
      obtain ⟨failed⟩ := fault
      rw [valueOf_resolveProperties_cons]
      exact Action.error?_bind_right hk (Action.error?_bind_left (error?_evaluateLiteral.2 failed))
  | case3 k l es s i place ih =>
      obtain ⟨⟨kv, vv, mid⟩, entry, visited⟩ := Option.bind_eq_some_iff.1 visited
      exact error?_resolveProperties_rest entry (ih mid visited)
  | case4 => cases visited

/-- A node that fails has no value. -/
theorem error?_of_fault_here {ty : Ty} {raw : Raw} (h : r.Fault p (.value path ty raw s) e) :
    (r.converted path ty raw).error? s = some e := by
  cases h with
  | evaluation failed => exact Action.error?_bind_left (error?_of_texts failed path)
  | dependency failed => exact Action.error?_bind_left (Action.error?_bind_left failed)
  | literalType evaluated failed =>
      refine Action.error?_bind_left ?_
      change (valueOf (r.resolveLiteral _ _)).error? s = _
      rw [valueOf_resolveLiteral]
      refine Action.error?_bind_right evaluated (Action.error?_bind_left ?_)
      rw [Action.error?_mapError, failed]
      rfl
  | literal evaluated typed failed =>
      refine Action.error?_bind_left ?_
      change (valueOf (r.resolveLiteral _ _)).error? s = _
      rw [valueOf_resolveLiteral]
      refine Action.error?_bind_right evaluated (Action.error?_bind_right
        ((Action.reach_mapError _ _ _).trans typed) ?_)
      rw [Action.error?_mapError, failed]
      rfl
  | nullProperty visited evaluated null =>
      refine Action.error?_bind_left ?_
      rw [valueOf_resolve_properties]
      exact Action.error?_map.2 (error?_of_null visited evaluated null)
  | noParent up missing =>
      refine Action.error?_bind_left (Action.error?_bind_left ?_)
      change (r.followReference _ _).error? s = _
      rw [followReference, if_pos up, Action.error?_bind_lift, missing]
      rfl
  | referenceAbove up above failed =>
      refine Action.error?_bind_left (Action.error?_bind_left ?_)
      change (r.followReference _ _).error? s = _
      rw [followReference, if_pos up, Action.error?_bind_lift, above]
      dsimp only
      rw [Action.error?_mapError, failed]
      rfl
  | reference here failed =>
      refine Action.error?_bind_left (Action.error?_bind_left ?_)
      change (r.followReference _ _).error? s = _
      rw [followReference, if_neg (by simp [here]), Action.error?_mapError]
      rw [lookUpHere, Action.error?_bind_left failed]
      rfl
  | nameReference evaluated unknown =>
      refine Action.error?_bind_left (Action.error?_bind_right evaluated ?_)
      rw [Action.error?_bind_lift, unknown]
      rfl
  | merge inner failed =>
      refine Action.error?_bind_left ?_
      rw [valueOf_resolve_inner inner]
      refine Action.error?_bind_left ?_
      rw [Action.error?_mapError, failed]
      rfl
  | inner nested merges named failed =>
      refine Action.error?_bind_left ?_
      rw [valueOf_resolve_inner nested]
      refine Action.error?_bind_right ((Action.reach_mapError _ _ _).trans merges)
        (Action.error?_bind_right named ?_)
      rw [Action.error?_mapError, failed]
      rfl
  | elementType declared failed =>
      refine Action.error?_bind_left ?_
      rw [valueOf_resolve_array]
      refine Action.error?_bind_left ?_
      simp only [elementType, declared]
      rw [Action.error?_mapError, failed]
      rfl
  | element typed reached failed =>
      refine Action.error?_bind_right reached ?_
      rw [convertElement, typed, if_neg Bool.false_ne_true, Action.error?_mapError, failed]
      rfl

mutual

/-- **A node that fails has the whole resolution fail**, with the same error. -/
theorem error?_of_fault (path : ArgPath) (ty : Ty) : ∀ (raw : Raw) (s : σ) {place : List Nat}
    {v : Visit σ}, r.visit? path ty raw s place = some v → r.Fault p v e →
      (r.converted path ty raw).error? s = some e
  | .null, _, place, _, visited, fault | .literal _, _, place, _, visited, fault
  | .value _, _, place, _, visited, fault | .reference _, _, place, _, visited, fault
  | .nameReference _, _, place, _, visited, fault | .dependency _, _, place, _, visited, fault
  | .holder _ _ _ _, _, place, _, visited, fault | .nested _ _, _, place, _, visited, fault => by
      cases place with
      | nil => cases visited; exact error?_of_fault_here fault
      | cons i place => cases visited
  | .array typeName remembered es, s, place, v, visited, fault => by
      cases place with
      | nil => cases visited; exact error?_of_fault_here fault
      | cons i place =>
          rw [visit?_array_cons] at visited
          obtain ⟨⟨elementTy, mid⟩, hty, visited⟩ := Option.bind_eq_some_iff.1 visited
          refine Action.error?_bind_left ?_
          rw [valueOf_resolve_array]
          refine Action.error?_bind_right hty (Action.error?_map.2 ?_)
          exact error?_elements_of_fault path elementTy 0 es mid visited fault
  | .list es, s, place, v, visited, fault => by
      cases place with
      | nil => cases visited; exact error?_of_fault_here fault
      | cons i place =>
          refine Action.error?_bind_left ?_
          rw [valueOf_resolve_list]
          exact Action.error?_map.2 (error?_elements_of_fault path .any 0 es s visited fault)
  | .set es, s, place, v, visited, fault => by
      cases place with
      | nil => cases visited; exact error?_of_fault_here fault
      | cons i place =>
          refine Action.error?_bind_left ?_
          rw [valueOf_resolve_set]
          exact Action.error?_map.2 (error?_elements_of_fault path .any 0 es s visited fault)
  | .map es, s, place, v, visited, fault => by
      cases place with
      | nil => cases visited; exact error?_of_fault_here fault
      | cons i place =>
          refine Action.error?_bind_left ?_
          rw [valueOf_resolve_map]
          exact Action.error?_map.2 (error?_entries_of_fault path es s visited fault)
  | .properties es, s, place, v, visited, fault => by
      cases place with
      | nil => cases visited; exact error?_of_fault_here fault
      | cons i place =>
          refine Action.error?_bind_left ?_
          rw [valueOf_resolve_properties]
          exact Action.error?_map.2 (error?_properties_of_fault visited fault)

theorem error?_elements_of_fault (path : ArgPath) (ty : Ty) : ∀ (n : Nat) (es : List Raw) (s : σ)
    {place : List Nat} {v : Visit σ}, r.visitElements? path ty n es s place = some v →
      r.Fault p v e → (valueOf (r.resolveElements path ty n es)).error? s = some e
  | _, [], _, _, _, visited, _ => by cases visited
  | n, e :: es, s, 0 :: place, v, visited, fault => by
      rw [valueOf_resolveElements_cons]
      exact Action.error?_bind_left (error?_of_fault (path.index n) ty e s visited fault)
  | n, e :: es, s, (i + 1) :: place, v, visited, fault => by
      obtain ⟨⟨value, mid⟩, he, visited⟩ := Option.bind_eq_some_iff.1 visited
      rw [valueOf_resolveElements_cons]
      refine Action.error?_bind_right ((reach_converted _ _ _ _ _).trans he)
        (Action.error?_map.2 ?_)
      exact error?_elements_of_fault path ty (n + 1) es mid visited fault

theorem error?_entries_of_fault (path : ArgPath) : ∀ (es : List (Raw × Raw)) (s : σ)
    {place : List Nat} {v : Visit σ}, r.visitEntries? path es s place = some v →
      r.Fault p v e → (valueOf (r.resolveEntries path es)).error? s = some e
  | [], _, _, _, visited, _ => by cases visited
  | (k, w) :: es, s, 0 :: 0 :: place, v, visited, fault => by
      rw [valueOf_resolveEntries_cons]
      have failed := error?_of_fault path .any k s visited fault
      rw [converted_any] at failed
      exact Action.error?_bind_left failed
  | (k, w) :: es, s, 0 :: 1 :: place, v, visited, fault => by
      obtain ⟨⟨kv, mid⟩, hk, visited⟩ := Option.bind_eq_some_iff.1 visited
      rw [valueOf_resolveEntries_cons]
      have failed := error?_of_fault (path.key kv) .any w mid visited fault
      rw [converted_any] at failed
      exact Action.error?_bind_right hk (Action.error?_bind_left failed)
  | (k, w) :: es, s, (i + 1) :: place, v, visited, fault => by
      obtain ⟨⟨kv, mid⟩, hk, visited⟩ := Option.bind_eq_some_iff.1 visited
      obtain ⟨⟨vv, mid'⟩, hv, visited⟩ := Option.bind_eq_some_iff.1 visited
      rw [valueOf_resolveEntries_cons]
      refine Action.error?_bind_right hk (Action.error?_bind_right hv (Action.error?_map.2 ?_))
      exact error?_entries_of_fault path es mid' visited fault

end

/-! ### A resolution that fails -/

/-- The node at one of the places fails, with the error. -/
def FaultAmong (r : Resolver σ) (visit? : List Nat → Option (Visit σ)) (places : List (List Nat))
    (e : Error) : Prop :=
  ∃ place ∈ places, ∃ v p, visit? place = some v ∧ r.Fault p v e

namespace FaultAmong

variable {visit? visit?' : List Nat → Option (Visit σ)} {places others : List (List Nat)}

theorem here {v : Visit σ} (h : r.Fault p v e) (visited : visit? [] = some v) :
    r.FaultAmong visit? ([] :: places) e :=
  ⟨[], List.mem_cons_self, v, p, visited, h⟩

theorem left (h : r.FaultAmong visit? places e) : r.FaultAmong visit? (places ++ others) e := by
  obtain ⟨place, hplace, h⟩ := h
  exact ⟨place, List.mem_append_left _ hplace, h⟩

theorem right (h : r.FaultAmong visit? places e) : r.FaultAmong visit? (others ++ places) e := by
  obtain ⟨place, hplace, h⟩ := h
  exact ⟨place, List.mem_append_right _ hplace, h⟩

/-- A node fails where another place leads to it. -/
theorem map {f : List Nat → List Nat} (h : r.FaultAmong visit? places e)
    (same : ∀ place, visit?' (f place) = visit? place) : r.FaultAmong visit?' (places.map f) e := by
  obtain ⟨place, hplace, v, p, visited, fault⟩ := h
  exact ⟨f place, List.mem_map_of_mem hplace, v, p, (same place).trans visited, fault⟩

/-- A node in a collection fails. -/
theorem inside (h : r.FaultAmong visit? places e) (nonempty : ∀ place ∈ places, place ≠ [])
    (same : ∀ i place, visit?' (i :: place) = visit? (i :: place)) :
    r.FaultAmong visit?' ([] :: places) e := by
  obtain ⟨place, hplace, v, p, visited, fault⟩ := h
  cases place with
  | nil => exact absurd rfl (nonempty [] hplace)
  | cons i place =>
      exact ⟨i :: place, List.mem_cons_of_mem _ hplace, v, p, (same i place).trans visited, fault⟩

end FaultAmong

variable {ty : Ty}

theorem literal_fault {l : Literal} (h : (valueOf (r.resolveLiteral path l)).error? s = some e) :
    r.Fault path (.value path ty (.literal l) s) e := by
  rw [valueOf_resolveLiteral] at h
  rcases Action.error?_bind.1 h with h | ⟨v, mid, evaluated, h⟩
  · exact .evaluation (error?_evaluateLiteral.1 h)
  rcases Action.error?_bind.1 h with h | ⟨target, mid', typed, h⟩
  · rw [Action.error?_mapError] at h
    obtain ⟨source, failed, rfl⟩ := Option.map_eq_some_iff.1 h
    exact .literalType evaluated failed
  rw [Action.reach_mapError] at typed
  cases target with
  | none => cases h
  | some target =>
      dsimp only at h
      rw [Action.error?_mapError] at h
      obtain ⟨source, failed, rfl⟩ := Option.map_eq_some_iff.1 h
      exact .literal evaluated typed failed

theorem value_fault {v : Value} (h : (r.resolveValue v).error? s = some e) :
    r.Fault path (.value path ty (.value v) s) e := by
  cases v with
  | string text => exact .evaluation (Action.error?_mapM_singleton.2 h)
  | stringArray items => exact .evaluation (Action.error?_map.1 h)
  | _ => cases h

theorem reference_fault {ref : Reference} (h : (r.resolveReference path ref).error? s = some e) :
    r.Fault path (.value path ty (.reference ref) s) e := by
  replace h : (r.followReference path ref).error? s = some e := Action.error?_map.1 h
  rw [followReference] at h
  split at h
  next up =>
    rw [Action.error?_bind_lift] at h
    rcases hparent : r.collaborators.parent s with ⟨_ | parent, mid⟩
    · rw [hparent] at h
      cases h
      exact .noParent up hparent
    · rw [hparent] at h
      dsimp only at h
      rw [Action.error?_mapError] at h
      obtain ⟨source, failed, rfl⟩ := Option.map_eq_some_iff.1 h
      exact .referenceAbove up hparent failed
  next here =>
    rw [Action.error?_mapError] at h
    obtain ⟨source, failed, rfl⟩ := Option.map_eq_some_iff.1 h
    rcases Action.error?_bind.1 failed with failed | ⟨found, mid, -, failed⟩
    · exact .reference (Bool.not_eq_true _ ▸ here) failed
    · cases failed

theorem nameReference_fault {name : String} (h : (r.resolveName path name).error? s = some e) :
    r.Fault path (.value path ty (.nameReference name) s) e := by
  rcases Action.error?_bind.1 h with h | ⟨actual, mid, evaluated, h⟩
  · exact .evaluation (Action.error?_mapM_singleton.2 (Action.error?_map.1 h))
  rw [Action.error?_bind_lift] at h
  cases known : (r.collaborators.containsBean actual mid).1 with
  | true => rw [known] at h; cases h
  | false =>
      rw [known] at h
      cases h
      exact .nameReference evaluated known

theorem dependency_fault {d : Dependency} (h : (r.resolveDependency d).error? s = some e) :
    r.Fault path (.value path ty (.dependency d) s) e := by
  rcases Action.error?_bind.1 h with h | ⟨selection, mid, -, h⟩
  · exact .dependency h
  · cases h

theorem error?_innerName (proposed : String) (merged : Blueprint) (s : σ) :
    (r.innerName proposed merged).error? s = none := by
  have none_raised := innerName_raises (r := r) (P := fun _ _ => False) proposed merged s
  unfold Action.error?
  rcases hrun : ((r.innerName proposed merged).run s).1 with (e | _) | _
  · rw [hrun] at none_raised
    exact False.elim none_raised
  · rfl
  · rfl

theorem inner_fault {raw : Raw} {proposed : String} {b : Blueprint}
    (inner : r.inner? raw = some (proposed, b))
    (h : (r.resolveInner path proposed b).error? s = some e) :
    r.Fault path (.value path ty raw s) e := by
  rcases Action.error?_bind.1 h with h | ⟨merged, mid, merges, h⟩
  · rw [Action.error?_mapError] at h
    obtain ⟨source, failed, rfl⟩ := Option.map_eq_some_iff.1 h
    exact .merge inner failed
  rw [Action.reach_mapError] at merges
  rcases Action.error?_bind.1 h with h | ⟨name, mid', named, h⟩
  · rw [error?_innerName] at h
    cases h
  rw [Action.error?_mapError] at h
  obtain ⟨source, failed, rfl⟩ := Option.map_eq_some_iff.1 h
  exact .inner inner merges named failed

theorem elementType_fault {typeName : Option String} {remembered : Option Ty} {es : List Raw}
    (h : (r.elementType path typeName remembered).error? s = some e) :
    r.Fault path (.value path ty (.array typeName remembered es) s) e := by
  unfold elementType at h
  split at h
  next => cases h
  next name declared =>
    rw [Action.error?_mapError] at h
    obtain ⟨source, failed, rfl⟩ := Option.map_eq_some_iff.1 h
    exact .elementType declared failed
  next => cases h

/-- A value that cannot be had, or cannot be converted, is had up to a node that fails. -/
theorem fault_of_converted {raw : Raw} {places : List (List Nat)}
    {visit? : List Nat → Option (Visit σ)} (h : (r.converted path ty raw).error? s = some e)
    (here : visit? [] = some (.value path ty raw s))
    (inside : (valueOf (r.resolve path raw)).error? s = some e →
      r.FaultAmong visit? ([] :: places) e) : r.FaultAmong visit? ([] :: places) e := by
  rcases Action.error?_bind.1 h with h | ⟨v, mid, reached, h⟩
  · exact inside h
  -- the conversion comes last, when nothing inside has failed
  rw [convertElement] at h
  split at h
  next => cases h
  next typed =>
    rw [Action.error?_mapError] at h
    obtain ⟨source, failed, rfl⟩ := Option.map_eq_some_iff.1 h
    exact .here (.element (Bool.not_eq_true _ ▸ typed) reached failed) here

theorem reachProperty_eq_some {k l : Literal} {mid mid' : σ} {kv vv : Value}
    (hk : reach (r.evaluateLiteral k) s = some (kv, mid))
    (hv : reach (r.evaluateLiteral l) mid = some (vv, mid'))
    (notNull : (kv.isNull || vv.isNull) = false) :
    r.reachProperty k l s = some (kv, vv, mid') := by
  rw [reachProperty, hk, Option.bind_some]
  dsimp only
  rw [hv, Option.bind_some, notNull]
  rfl

/-- Properties fail where a key or a value does, or with an entry that is null. -/
theorem properties_fault : ∀ (es : List (Literal × Literal)) (s : σ),
    (valueOf (r.resolveProperties path es)).error? s = some e →
      r.FaultAmong (r.visitProperties? es s) (Raw.placesLiterals es) e ∨
        ∃ i kv l vv s' s'', r.visitProperties? es s [i, 1] = some (.property kv l s') ∧
          reach (r.evaluateLiteral l) s' = some (vv, s'') ∧ (kv.isNull ∨ vv.isNull) ∧
            e = .nullProperty (r.site path)
  | [], _, h => by cases h
  | (k, l) :: es, s, h => by
      rw [valueOf_resolveProperties_cons] at h
      rcases Action.error?_bind.1 h with h | ⟨kv, mid, hk, h⟩
      · refine .inl ⟨[0, 0], List.mem_cons_self, .key k s, path, rfl, ?_⟩
        exact .evaluation (error?_evaluateLiteral.1 h)
      rw [Action.reach_valueOf] at hk
      have visited : r.visitProperties? ((k, l) :: es) s [0, 1] = some (.property kv l mid) := by
        rw [visitProperties?, hk, Option.map_some]
      rcases Action.error?_bind.1 h with h | ⟨vv, mid', hv, h⟩
      · refine .inl ⟨[0, 1], List.mem_cons_of_mem _ List.mem_cons_self, _, path, visited, ?_⟩
        exact .evaluation (error?_evaluateLiteral.1 h)
      rw [Action.reach_valueOf] at hv
      split at h
      next null =>
        cases h
        exact .inr ⟨0, kv, l, vv, mid, mid', visited, hv, Bool.or_eq_true _ _ ▸ null, rfl⟩
      next notNull =>
        have entry := reachProperty_eq_some hk hv (Bool.not_eq_true _ ▸ notNull)
        -- an entry is null only with all entries before it in order
        rcases properties_fault es mid' (Action.error?_map.1 h) with
          rest | ⟨i, kv', l', vv', s', s'', visited', evaluated, null, rfl⟩
        · refine .inl ?_
          obtain ⟨place, hplace, v, p, hv, fault⟩ := rest
          refine ⟨Raw.shift place, ?_, v, p, ?_, fault⟩
          · exact List.mem_cons_of_mem _ (List.mem_cons_of_mem _ (List.mem_map_of_mem hplace))
          · rwa [visitProperties?_shift, entry, Option.bind_some]
        · refine .inr ⟨i + 1, kv', l', vv', s', s'', ?_, evaluated, null, rfl⟩
          rwa [visitProperties?, entry, Option.bind_some]

mutual

/-- **A resolution that fails has visited a node that fails**, with the same error. -/
theorem exists_fault (path : ArgPath) (ty : Ty) : ∀ (raw : Raw) (s : σ),
    (r.converted path ty raw).error? s = some e →
      r.FaultAmong (r.visit? path ty raw s) raw.places e
  | .null, _, h => fault_of_converted h rfl nofun
  | .literal l, _, h => fault_of_converted h rfl fun h => .here (literal_fault h) rfl
  | .value v, _, h => fault_of_converted h rfl fun h => .here (value_fault h) rfl
  | .reference ref, _, h => fault_of_converted h rfl fun h => .here (reference_fault h) rfl
  | .nameReference name, _, h =>
      fault_of_converted h rfl fun h => .here (nameReference_fault h) rfl
  | .dependency d, _, h => fault_of_converted h rfl fun h => .here (dependency_fault h) rfl
  | .holder _ _ _ _, _, h | .nested _ _, _, h =>
      fault_of_converted h rfl fun h => .here (inner_fault rfl h) rfl
  | .array typeName remembered es, s, h => by
      refine fault_of_converted h rfl fun h => ?_
      rw [valueOf_resolve_array] at h
      rcases Action.error?_bind.1 h with h | ⟨elementTy, mid, hty, h⟩
      · exact .here (elementType_fault h) rfl
      · have inside := elements_fault path elementTy 0 es mid (Action.error?_map.1 h)
        refine inside.inside (Raw.ne_nil_of_mem_placesAll es) fun i place => ?_
        rw [visit?_array_cons, hty, Option.bind_some]
  | .list es, s, h => by
      refine fault_of_converted h rfl fun h => ?_
      rw [valueOf_resolve_list] at h
      have inside := elements_fault path .any 0 es s (Action.error?_map.1 h)
      exact inside.inside (Raw.ne_nil_of_mem_placesAll es) fun _ _ => rfl
  | .set es, s, h => by
      refine fault_of_converted h rfl fun h => ?_
      rw [valueOf_resolve_set] at h
      have inside := elements_fault path .any 0 es s (Action.error?_map.1 h)
      exact inside.inside (Raw.ne_nil_of_mem_placesAll es) fun _ _ => rfl
  | .map es, s, h => by
      refine fault_of_converted h rfl fun h => ?_
      rw [valueOf_resolve_map] at h
      have inside := entries_fault path es s (Action.error?_map.1 h)
      exact inside.inside (Raw.ne_nil_of_mem_placesEntries es) fun _ _ => rfl
  | .properties es, s, h => by
      refine fault_of_converted h rfl fun h => ?_
      rw [valueOf_resolve_properties] at h
      rcases properties_fault es s (Action.error?_map.1 h) with
        inside | ⟨i, kv, l, vv, s', s'', visited, evaluated, null, rfl⟩
      · exact inside.inside (Raw.ne_nil_of_mem_placesLiterals es) fun _ _ => rfl
      · exact .here (.nullProperty visited evaluated null) rfl

theorem elements_fault (path : ArgPath) (ty : Ty) : ∀ (n : Nat) (es : List Raw) (s : σ),
    (valueOf (r.resolveElements path ty n es)).error? s = some e →
      r.FaultAmong (r.visitElements? path ty n es s) (Raw.placesAll es) e
  | _, [], _, h => by cases h
  | n, first :: es, s, h => by
      rw [valueOf_resolveElements_cons] at h
      rcases Action.error?_bind.1 h with h | ⟨v, mid, hv, h⟩
      · exact ((exists_fault (path.index n) ty first s h).map (f := (0 :: ·)) fun _ => rfl).left
      · have rest := elements_fault path ty (n + 1) es mid (Action.error?_map.1 h)
        refine (rest.map fun place => ?_).right
        rw [visitElements?_shift, ← reach_converted, hv, Option.bind_some]

theorem entries_fault (path : ArgPath) : ∀ (es : List (Raw × Raw)) (s : σ),
    (valueOf (r.resolveEntries path es)).error? s = some e →
      r.FaultAmong (r.visitEntries? path es s) (Raw.placesEntries es) e
  | [], _, h => by cases h
  | (k, w) :: es, s, h => by
      rw [valueOf_resolveEntries_cons] at h
      rcases Action.error?_bind.1 h with h | ⟨kv, mid, hk, h⟩
      · rw [← converted_any] at h
        exact ((exists_fault path .any k s h).map (f := (0 :: 0 :: ·)) fun _ => rfl).left
      rw [Action.reach_valueOf] at hk
      rcases Action.error?_bind.1 h with h | ⟨vv, mid', hv, h⟩
      · rw [← converted_any] at h
        refine ((exists_fault (path.key kv) .any w mid h).map fun place => ?_).left.right
        rw [visitEntries?, hk, Option.bind_some]
      · rw [Action.reach_valueOf] at hv
        have rest := entries_fault path es mid' (Action.error?_map.1 h)
        refine (rest.map fun place => ?_).right.right
        rw [visitEntries?_shift, hk, Option.bind_some]
        dsimp only
        rw [hv, Option.bind_some]

end

/-- Up to a node that is visited, all nodes are. -/
theorem visited_of_visited {before after : List (List Nat)} {place other : List Nat} {v : Visit σ}
    {raw : Raw} (hplaces : raw.places = before ++ place :: after)
    (visited : r.visit? path ty raw s place = some v) (hother : other ∈ before) :
    ∃ w, r.visit? path ty raw s other = some w := by
  have order := visits_in_order (r := r) path ty raw s
  rw [hplaces, List.pairwise_append] at order
  have earlier := order.2.2 other hother place List.mem_cons_self (by rw [visited]; rfl)
  obtain ⟨w, hw, -⟩ := (Option.any_eq_true _ _).1 earlier
  exact ⟨w, hw⟩

/-- The node at the place is visited and fails. -/
def FailsAt (r : Resolver σ) (path : ArgPath) (raw : Raw) (s : σ) (place : List Nat) : Prop :=
  ∃ v q f, r.visit? path .any raw s place = some v ∧ r.Fault q v f

/-- Of the nodes that fail, one is the first. -/
theorem exists_first_fault {raw : Raw} (failed : (r.converted path .any raw).error? s = some e) :
    ∃ before place after, raw.places = before ++ place :: after ∧ r.FailsAt path raw s place ∧
      ∀ other ∈ before, ¬ r.FailsAt path raw s other := by
  classical
  obtain ⟨place, hplace, v, q, visited, fault⟩ := exists_fault path .any raw s failed
  have found : (raw.places.find? (r.FailsAt path raw s ·)).isSome :=
    List.find?_isSome.2 ⟨place, hplace, decide_eq_true ⟨v, q, e, visited, fault⟩⟩
  obtain ⟨first, hfirst⟩ := Option.isSome_iff_exists.1 found
  obtain ⟨fails, before, after, hplaces, hbefore⟩ := List.find?_eq_some_iff_append.1 hfirst
  refine ⟨before, first, after, hplaces, of_decide_eq_true fails, fun other hother => ?_⟩
  simpa using hbefore other hother

/-- **A resolution fails as the first node that fails, at the path of that node.**  All nodes before
it are visited and do not fail. -/
theorem error_iff_first_fault (r : Resolver σ) (path : ArgPath) (raw : Raw) (s : σ) (e : Error) :
    (r.resolve path raw s).1.outcome = .error (.error e) ↔
      ∃ before place after v p, raw.places = before ++ place :: after ∧
        (∀ other ∈ before, ∃ w, r.visit? path .any raw s other = some w ∧
          ∀ q f, ¬ r.Fault q w f) ∧
        r.visit? path .any raw s place = some v ∧
        raw.PathTo (r.valueAt path .any raw s) path place p ∧ r.Fault p v e := by
  have fails : (r.resolve path raw s).1.outcome = .error (.error e) ↔
      (r.converted path .any raw).error? s = some e := by
    rw [converted_any]
    exact ⟨congrArg Stop.error?, Stop.eq_of_error?⟩
  rw [fails]
  constructor
  · intro failed
    obtain ⟨before, place, after, hplaces, ⟨v, q, f, visited, fault⟩, hbefore⟩ :=
      exists_first_fault failed
    obtain ⟨p, hp, at_p⟩ := pathTo_visit path .any raw s visited
    -- a run has one error, so it is that of the first fault too
    have same : some f = some e :=
      (error?_of_fault path .any raw s visited fault).symm.trans failed
    cases same
    -- the path of the fault that was found may be any where the node is a text of properties
    refine ⟨before, place, after, v, p, hplaces, fun other hother => ?_, visited, hp,
      fault.at at_p⟩
    obtain ⟨w, hw⟩ := visited_of_visited hplaces visited hother
    exact ⟨w, hw, fun q f fault => hbefore other hother ⟨w, q, f, hw, fault⟩⟩
  · rintro ⟨before, place, after, v, p, hplaces, hbefore, visited, hp, fault⟩
    exact error?_of_fault path .any raw s visited fault

end Resolver

end Wiring
