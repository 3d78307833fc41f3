import Wiring.Resolver.Create
import Wiring.Resolver.Lookup
import Wiring.Value.Equality

/-!
# Resolver — raw trees

`Resolver.resolve` resolves a raw value at an argument path.  Collections are resolved element by
element and stop at the first failure, each kind by a loop of its own: an array converts its
elements, a list takes them as they are, and a set adds each to its members as soon as it is there.
The answer holds the raw value as resolution left it: what literals and arrays remember may have
grown, outside nested blueprints, also when resolution failed.

The loops of lists and sets do what the loop of an array does that converts nothing
(`resolveList_eq`, `resolveSet_eq`), so there are two equations more for `resolve` (`resolve_list`,
`resolve_set`).
-/

namespace Wiring.Resolver

variable {σ : Type}

/-- A declared element type; a blank name declares none. -/
def declaredElementType (typeName : Option String) : Option String :=
  (typeName.map Text.trim).filter fun name => !name.isEmpty

/-- The element type of an array: the one it remembers, or else the one its declared name loads, or
`any` without one. -/
def elementType (r : Resolver σ) (path : ArgPath) (typeName : Option String)
    (remembered : Option Ty) : Action σ Ty :=
  match remembered, declaredElementType typeName with
  | some ty, _ => pure ty
  | none, some name => (r.collaborators.loadType name).mapError (.elementType (r.site path))
  | none, none => pure .any

/-- An element converted into the element type. -/
def convertElement (r : Resolver σ) (path : ArgPath) (ty : Ty) (v : Value) : Action σ Value :=
  if ty.isAny then pure v
  else (r.collaborators.coerce v ty).mapError (r.typedValueError path)

mutual

/-- The value of a raw value at the path. -/
def resolve (r : Resolver σ) (path : ArgPath) : Raw → StateM σ (Resolved Raw Value)
  | .null => return ⟨.null, .ok .null⟩
  | .literal l => do
    let l ← r.resolveLiteral path l
    return ⟨.literal l.node, l.outcome⟩
  | .value v => (r.resolveValue v).leaving (.value v)
  | .reference ref => (r.resolveReference path ref).leaving (.reference ref)
  | .nameReference name => (r.resolveName path name).leaving (.nameReference name)
  | .dependency d => (r.resolveDependency d).leaving (.dependency d)
  | .holder name aliases cell b =>
    (r.resolveInner path name b).leaving (.holder name aliases cell b)
  | .nested cell b =>
    (r.resolveInner path (r.naming.innerName b.token) b).leaving (.nested cell b)
  | .array typeName remembered es => do
    match ← (r.elementType path typeName remembered).run with
    | .error stop => return ⟨.array typeName remembered es, .error stop⟩
    | .ok ty =>
      let es ← r.resolveElements path ty 0 es
      return ⟨.array typeName (some ty) es.node, es.outcome.map (.array ty)⟩
  | .list es => do
    let es ← r.resolveList path 0 es
    return ⟨.list es.node, es.outcome.map .list⟩
  | .set es => do
    let es ← r.resolveSet path [] 0 es
    return ⟨.set es.node, es.outcome.map .set⟩
  | .map es => do
    let es ← r.resolveEntries path es
    return ⟨.map es.node, es.outcome.map Value.mapOf⟩
  | .properties es => do
    let es ← r.resolveProperties path es
    return ⟨.properties es.node, es.outcome.map Value.propertiesOf⟩
termination_by structural raw => raw

/-- The values of the elements of the array at the path, from the position `i` on, each converted
into the element type. -/
def resolveElements (r : Resolver σ) (path : ArgPath) (ty : Ty) (i : Nat) :
    List Raw → StateM σ (Resolved (List Raw) (List Value))
  | [] => return ⟨[], .ok []⟩
  | e :: es => do
    let first ← r.resolve (path.index i) e
    match first.outcome with
    | .error stop => return ⟨first.node :: es, .error stop⟩
    | .ok v =>
      match ← (r.convertElement (path.index i) ty v).run with
      | .error stop => return ⟨first.node :: es, .error stop⟩
      | .ok v =>
        let rest ← r.resolveElements path ty (i + 1) es
        return ⟨first.node :: rest.node, rest.outcome.map (v :: ·)⟩
termination_by structural es => es

/-- The values of the elements of the list at the path, from the position `i` on. -/
def resolveList (r : Resolver σ) (path : ArgPath) (i : Nat) :
    List Raw → StateM σ (Resolved (List Raw) (List Value))
  | [] => return ⟨[], .ok []⟩
  | e :: es => do
    let first ← r.resolve (path.index i) e
    match first.outcome with
    | .error stop => return ⟨first.node :: es, .error stop⟩
    | .ok v =>
      let rest ← r.resolveList path (i + 1) es
      return ⟨first.node :: rest.node, rest.outcome.map (v :: ·)⟩
termination_by structural es => es

/-- The members of the set at the path.  Each value is added to the members so far as soon as it is
there, from the position `i` on. -/
def resolveSet (r : Resolver σ) (path : ArgPath) (members : List Value) (i : Nat) :
    List Raw → StateM σ (Resolved (List Raw) (List Value))
  | [] => return ⟨[], .ok members⟩
  | e :: es => do
    let first ← r.resolve (path.index i) e
    match first.outcome with
    | .error stop => return ⟨first.node :: es, .error stop⟩
    | .ok v =>
      let rest ← r.resolveSet path (Ordered.add members v) (i + 1) es
      return ⟨first.node :: rest.node, rest.outcome⟩
termination_by structural es => es

/-- The entries of the map at the path.  A key is resolved at the map's own path, a value at the
path that its key adds. -/
def resolveEntries (r : Resolver σ) (path : ArgPath) :
    List (Raw × Raw) → StateM σ (Resolved (List (Raw × Raw)) (List (Value × Value)))
  | [] => return ⟨[], .ok []⟩
  | (k, v) :: es => do
    let key ← r.resolve path k
    match key.outcome with
    | .error stop => return ⟨(key.node, v) :: es, .error stop⟩
    | .ok kv =>
      let value ← r.resolve (path.key kv) v
      match value.outcome with
      | .error stop => return ⟨(key.node, value.node) :: es, .error stop⟩
      | .ok vv =>
        let rest ← r.resolveEntries path es
        return ⟨(key.node, value.node) :: rest.node, rest.outcome.map ((kv, vv) :: ·)⟩
termination_by structural es => es

end

/-! ### The loops over elements -/

theorem resolveElements_any_cons (r : Resolver σ) (path : ArgPath) (i : Nat) (e : Raw)
    (es : List Raw) :
    r.resolveElements path .any i (e :: es) = do
      let first ← r.resolve (path.index i) e
      match first.outcome with
      | .error stop => return ⟨first.node :: es, .error stop⟩
      | .ok v =>
        let rest ← r.resolveElements path .any (i + 1) es
        return ⟨first.node :: rest.node, rest.outcome.map (v :: ·)⟩ := by
  funext s
  rw [resolveElements, state_bind, state_bind]
  rcases r.resolve (path.index i) e s with ⟨⟨node, stop | v⟩, mid⟩ <;> rfl

/-- Element by element, a list does what an array of the type `any` does. -/
theorem resolveList_eq (r : Resolver σ) (path : ArgPath) : ∀ (i : Nat) (es : List Raw),
    r.resolveList path i es = r.resolveElements path .any i es
  | _, [] => rfl
  | i, e :: es => by rw [resolveList, resolveElements_any_cons, resolveList_eq r path (i + 1) es]

/-- Element by element, a set does what an array of the type `any` does; its members are the array's
values, added in order. -/
theorem resolveSet_eq (r : Resolver σ) (path : ArgPath) :
    ∀ (members : List Value) (i : Nat) (es : List Raw) (s : σ),
      r.resolveSet path members i es s =
        (r.resolveElements path .any i es s).map
          (fun es => ⟨es.node, es.outcome.map fun vs => vs.foldl Ordered.add members⟩) id
  | _, _, [], _ => rfl
  | members, i, e :: es, s => by
      rw [resolveSet, resolveElements_any_cons, state_bind, state_bind]
      rcases r.resolve (path.index i) e s with ⟨⟨node, stop | v⟩, mid⟩
      · rfl
      · dsimp only
        -- the value is added first, and the values of the other elements behind it
        rw [state_bind, state_bind, resolveSet_eq r path (Ordered.add members v) (i + 1) es mid]
        rcases r.resolveElements path .any (i + 1) es mid with ⟨⟨nodes, stop | vs⟩, after⟩ <;> rfl

theorem resolve_list (r : Resolver σ) (path : ArgPath) (es : List Raw) :
    r.resolve path (.list es) = do
      let es ← r.resolveElements path .any 0 es
      return ⟨.list es.node, es.outcome.map .list⟩ := by
  rw [resolve, resolveList_eq]

theorem resolve_set (r : Resolver σ) (path : ArgPath) (es : List Raw) :
    r.resolve path (.set es) = do
      let es ← r.resolveElements path .any 0 es
      return ⟨.set es.node, es.outcome.map Value.setOf⟩ := by
  funext s
  rw [resolve, state_bind, state_bind, resolveSet_eq]
  rcases r.resolveElements path .any 0 es s with ⟨⟨nodes, stop | vs⟩, after⟩ <;> rfl

/-- The value of a raw value for the argument of the given name. -/
def resolveNamed (r : Resolver σ) (name : String) (raw : Raw) : StateM σ (Resolved Raw Value) :=
  r.resolve (.root name) raw

end Wiring.Resolver
