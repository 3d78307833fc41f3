import Wiring.Proofs.Action.InTurn
import Wiring.Proofs.Ordered
import Wiring.Proofs.Resolver.Paths
import Wiring.Proofs.Value.Equality
import Wiring.Script

/-!
# Resolver — collections, part by part

`Collection` are the collections of raw values.  Whatever the collection, its parts are resolved in
turn (`resolve_raw`): elements, each converted into the element type, and entries, key before value.

**Lists, sets and arrays without an element type differ in what they make of their values, and in
nothing else** (`collections_agree`): their loops do the same to each element, step by step
(`resolveList_eq`, `resolveSet_eq`), and to add a value to the members of a set at once is to add it
behind those of the elements before.

**A collection in two parts is resolved part by part** (`resolve_append`).  Where the first part
fails, the whole does, and nothing of the second part is touched.  Otherwise the second part is
resolved as it is by itself from where the first part ended, but that its elements stand further on.
-/

namespace Wiring

variable {σ ν α : Type}

/-- The element type of an array, where it is known without asking. -/
def knownElementType (typeName : Option String) (remembered : Option Ty) : Option Ty :=
  match remembered, Resolver.declaredElementType typeName with
  | some ty, _ => some ty
  | none, some _ => none
  | none, none => some .any

/-- The collections, each with the type of its parts before resolution and after. -/
inductive Collection : Type → Type → Type where
  | list : Collection Raw Value
  | set : Collection Raw Value
  | array (typeName : Option String) (remembered : Option Ty) (ty : Ty)
      (known : knownElementType typeName remembered = some ty) : Collection Raw Value
  | map : Collection (Raw × Raw) (Value × Value)
  | properties : Collection (Literal × Literal) (Value × Value)

namespace Collection

/-- The raw value of the parts. -/
def raw : Collection ν α → List ν → Raw
  | list, es => .list es
  | set, es => .set es
  | array typeName remembered _ _, es => .array typeName remembered es
  | map, es => .map es
  | properties, es => .properties es

/-- The raw value of the parts once the collection was resolved: an array remembers its element
type. -/
def left : Collection ν α → List ν → Raw
  | list, es => .list es
  | set, es => .set es
  | array typeName _ ty _, es => .array typeName (some ty) es
  | map, es => .map es
  | properties, es => .properties es

/-- The value made of what the parts became. -/
def value : Collection ν α → List α → Value
  | list, vs => .list vs
  | set, vs => .setOf vs
  | array _ _ ty _, vs => .array ty vs
  | map, es => .mapOf es
  | properties, es => .propertiesOf es

end Collection

/-- The value with the contents of another one of its kind: appended to a list or an array, added to
a set, put into a table. -/
def Value.extend : Value → Value → Value
  | list vs, list ws => list (vs ++ ws)
  | array ty vs, array _ ws => array ty (vs ++ ws)
  | set vs, set ws => set (ws.foldl Ordered.add vs)
  | map es, map fs => map (Ordered.putAll es fs)
  | properties es, properties fs => properties (Ordered.putAll es fs)
  | v, _ => v

/-- The value of two parts is that of the first, extended with that of the second. -/
theorem Collection.value_append (c : Collection ν α) (as bs : List α) :
    c.value (as ++ bs) = (c.value as).extend (c.value bs) := by
  cases c with
  | list | array => rfl
  | set =>
      refine congrArg Value.set ?_
      rw [Ordered.foldl_add_ofList, Ordered.ofList, List.foldl_append]
      rfl
  | map => exact congrArg Value.map (Ordered.ofPairs_append as bs)
  | properties => exact congrArg Value.properties (Ordered.ofPairs_append as bs)

namespace Resolver

variable {r : Resolver σ} {path : ArgPath} {s : σ}

/-! ### The parts -/

/-- An element at its place, converted into the element type. -/
def element (r : Resolver σ) (ty : Ty) (place : ArgPath) (e : Raw) :
    StateM σ (Resolved Raw Value) := do
  let first ← r.resolve place e
  match first.outcome with
  | .error stop => return ⟨first.node, .error stop⟩
  | .ok v => (r.convertElement place ty v).leaving first.node

/-- An entry of the map at the path. -/
def entry (r : Resolver σ) (path : ArgPath) :
    Raw × Raw → StateM σ (Resolved (Raw × Raw) (Value × Value))
  | (k, v) => do
    let key ← r.resolve path k
    match key.outcome with
    | .error stop => return ⟨(key.node, v), .error stop⟩
    | .ok kv =>
      let value ← r.resolve (path.key kv) v
      return ⟨(key.node, value.node), value.outcome.map (kv, ·)⟩

/-- An entry of the properties at the path. -/
def property (r : Resolver σ) (path : ArgPath) :
    Literal × Literal → StateM σ (Resolved (Literal × Literal) (Value × Value))
  | (k, v) => do
    let key ← r.evaluateLiteral k
    match key.outcome with
    | .error stop => return ⟨(key.node, v), .error stop⟩
    | .ok kv =>
      let value ← r.evaluateLiteral v
      match value.outcome with
      | .error stop => return ⟨(key.node, value.node), .error stop⟩
      | .ok vv =>
        if kv.isNull || vv.isNull then
          return ⟨(key.node, value.node), .error (.error (.nullProperty (r.site path)))⟩
        else return ⟨(key.node, value.node), .ok (kv, vv)⟩

/-- The part of a collection at a position. -/
def part (r : Resolver σ) (path : ArgPath) : Collection ν α → Nat → ν → StateM σ (Resolved ν α)
  | .list, i => r.element .any (path.index i)
  | .set, i => r.element .any (path.index i)
  | .array _ _ ty _, i => r.element ty (path.index i)
  | .map, _ => r.entry path
  | .properties, _ => r.property path

theorem resolveElements_eq (path : ArgPath) (ty : Ty) (i : Nat) (es : List Raw) (s : σ) :
    r.resolveElements path ty i es s = inTurn (fun i => r.element ty (path.index i)) i es s := by
  induction es generalizing i s with
  | nil => rfl
  | cons e es ih =>
      rw [resolveElements, inTurn, element, state_bind, state_bind, state_bind]
      rcases r.resolve (path.index i) e s with ⟨⟨node, stop | v⟩, mid⟩
      · rfl
      · dsimp only
        rw [state_bind, Action.leaving_run]
        rcases (r.convertElement (path.index i) ty v).run mid with ⟨stop | w, mid'⟩
        · rfl
        · dsimp only
          rw [state_bind, ih (i + 1) mid']
          rfl

theorem resolveEntries_eq (path : ArgPath) (i : Nat) (es : List (Raw × Raw)) (s : σ) :
    r.resolveEntries path es s = inTurn (fun _ => r.entry path) i es s := by
  induction es generalizing i s with
  | nil => rfl
  | cons e es ih =>
      obtain ⟨k, v⟩ := e
      rw [resolveEntries, inTurn, entry, state_bind, state_bind, state_bind]
      rcases r.resolve path k s with ⟨⟨key, stop | kv⟩, mid⟩
      · rfl
      · dsimp only
        rw [state_bind, state_bind]
        rcases r.resolve (path.key kv) v mid with ⟨⟨value, stop | vv⟩, mid'⟩
        · rfl
        · dsimp only
          rw [state_bind, ih (i + 1) mid']
          rfl

theorem resolveProperties_eq (path : ArgPath) (i : Nat) (es : List (Literal × Literal)) (s : σ) :
    r.resolveProperties path es s = inTurn (fun _ => r.property path) i es s := by
  induction es generalizing i s with
  | nil => rfl
  | cons e es ih =>
      obtain ⟨k, v⟩ := e
      rw [resolveProperties, inTurn, property, state_bind, state_bind, state_bind]
      rcases r.evaluateLiteral k s with ⟨⟨key, stop | kv⟩, mid⟩
      · rfl
      · dsimp only
        rw [state_bind, state_bind]
        rcases r.evaluateLiteral v mid with ⟨⟨value, stop | vv⟩, mid'⟩
        · rfl
        · dsimp only
          split
          · rfl
          · rw [state_bind, ih (i + 1) mid']
            rfl

theorem elementType_known {typeName : Option String} {remembered : Option Ty} {ty : Ty}
    (known : knownElementType typeName remembered = some ty) :
    r.elementType path typeName remembered = pure ty := by
  unfold knownElementType at known
  unfold elementType
  generalize declaredElementType typeName = declared at known
  match remembered, declared, known with
  | some _, _, rfl | none, none, rfl => rfl

/-- **The parts of a collection are resolved in turn.** -/
theorem resolve_raw (r : Resolver σ) (path : ArgPath) (c : Collection ν α) (es : List ν) (s : σ) :
    r.resolve path (c.raw es) s =
      let parts := inTurn (r.part path c) 0 es s
      (⟨c.left parts.1.node, parts.1.outcome.map c.value⟩, parts.2) := by
  cases c with
  | list =>
      rw [Collection.raw, resolve_list, state_bind, resolveElements_eq]
      rfl
  | set =>
      rw [Collection.raw, resolve_set, state_bind, resolveElements_eq]
      rfl
  | array typeName remembered ty known =>
      rw [Collection.raw, resolve, elementType_known known]
      have parts := resolveElements_eq (r := r) path ty 0 es s
      exact congrArg (fun parts => ((⟨.array typeName (some ty) parts.1.node,
        parts.1.outcome.map (.array ty)⟩ : Resolved Raw Value), parts.2)) parts
  | map =>
      rw [Collection.raw, resolve, state_bind, resolveEntries_eq path 0]
      rfl
  | properties =>
      rw [Collection.raw, resolve, state_bind, resolveProperties_eq path 0]
      rfl

theorem calls_raw (r : Resolver σ) (path : ArgPath) (c : Collection ν α) (es : List ν) (s : σ) :
    r.calls path (c.raw es) s = (inTurn (r.traced.part path c) 0 es ⟨s, []⟩).2.calls :=
  congrArg (·.2.calls) (r.traced.resolve_raw path c es ⟨s, []⟩)

/-- **Lists, sets and arrays without an element type differ in what they make of their values, and
in nothing else.** -/
theorem collections_agree (r : Resolver σ) (path : ArgPath) {typeName : Option String}
    (undeclared : declaredElementType typeName = none) (es : List Raw) (s : σ) :
    (r.calls path (.set es) s = r.calls path (.list es) s ∧
      r.calls path (.array typeName none es) s = r.calls path (.list es) s) ∧
    ∃ (es' : List Raw) (outcome : Except Stop (List Value)) (s' : σ),
      r.resolve path (.list es) s = (⟨.list es', outcome.map .list⟩, s') ∧
      r.resolve path (.set es) s =
        (⟨.set es', outcome.map fun vs => .set (Ordered.firsts vs)⟩, s') ∧
      r.resolve path (.array typeName none es) s =
        (⟨.array typeName (some .any) es', outcome.map (.array .any)⟩, s') := by
  have known : knownElementType typeName none = some .any := by
    unfold knownElementType
    rw [undeclared]
  have setOf : (fun vs => .set (Ordered.firsts vs)) = Value.setOf :=
    funext fun vs => congrArg Value.set (Ordered.ofList_eq_firsts vs).symm
  -- the same parts are resolved in each of the three
  have list := r.calls_raw path .list es s
  refine ⟨⟨(r.calls_raw path .set es s).trans list.symm,
    (r.calls_raw path (.array typeName none .any known) es s).trans list.symm⟩,
    _, _, _, r.resolve_raw path .list es s, ?_, ?_⟩
  · rw [setOf]
    exact r.resolve_raw path .set es s
  · exact r.resolve_raw path (.array typeName none .any known) es s

/-- A blank name declares no element type.  Of the two sets, which are equal, the set keeps the first
one. -/
theorem collections_agree_of_blank :
    let r : Resolver Unit := {
      collaborators := ({} : Script).collaborators, bean := "owner"
      blueprint := ⟨0, none, .singleton, [], false, none, [], []⟩ }
    let es : List Raw := [.value (.set [.int 1, .int 2]), .literal { text := some "a" },
      .value (.set [.int 2, .int 1])]
    declaredElementType (some " ") = none ∧
      r.calls (.root "p") (.array (some " ") none es) () = r.calls (.root "p") (.list es) () ∧
      (r.resolve (.root "p") (.set es) ()).1.outcome =
        .ok (.set [.set [.int 1, .int 2], .string "a"]) ∧
      ∃ (es' : List Raw) (outcome : Except Stop (List Value)) (s' : Unit),
        r.resolve (.root "p") (.list es) () = (⟨.list es', outcome.map .list⟩, s') ∧
        r.resolve (.root "p") (.set es) () =
          (⟨.set es', outcome.map fun vs => .set (Ordered.firsts vs)⟩, s') ∧
        r.resolve (.root "p") (.array (some " ") none es) () =
          (⟨.array (some " ") (some .any) es', outcome.map (.array .any)⟩, s') := by
  intro r es
  have blank : declaredElementType (some " ") = none := by decide +kernel
  have agree := collections_agree r (.root "p") blank es ()
  exact ⟨blank, agree.1.2, rfl, agree.2⟩

/-! ### A collection in two parts -/

/-- The error of a collection's part, when the collection stands behind `n` others: an element's own
error tells that the element stands `n` further on. -/
def Moved (r : Resolver σ) (path : ArgPath) (n count : Nat) :
    Collection ν α → Error → Error → σ → Prop
  | .map, e, f, _ | .properties, e, f, _ => e = f
  | _, e, f, s => ∃ i < count, r.TellsBoth (path.index i) (path.index (n + i)) e f s

theorem element_sideBySide (ty : Ty) (a b : ArgPath) (e : Raw) (s : σ) :
    SideBySide Eq (Agrees (r.TellsBoth a b)) (r.element ty a e) (r.element ty b e) s s := by
  have beside := r.runsBeside_self a b
  refine (resolve_sideBySide beside (.refl a b) e rfl).bind_resolved id (fun _ _ => rfl)
    (fun _ _ => rfl) fun node v _ _ hR => ?_
  exact Action.sideBySide_leaving node (convertElement_sideBySide beside (.refl a b) ty v hR)

/-- A part that stands further on is resolved as before, but for the errors that tell where it
stands. -/
theorem part_sideBySide (r : Resolver σ) (path : ArgPath) (c : Collection ν α) (n : Nat)
    {i count : Nat} (hi : i < count) (item : ν) (s : σ) :
    SideBySide Eq (AgreesBy Eq (r.Moved path n count c)) (r.part path c i item)
      (r.part path c (n + i) item) s s := by
  have elements (ty : Ty) (e : Raw) := element_sideBySide (r := r) ty (path.index i)
    (path.index (n + i)) e s
  cases c with
  | list | set => exact (elements .any item).imp fun h => ⟨h.node, h.outcome.imp (⟨i, hi, ·⟩)⟩
  | array _ _ ty => exact (elements ty item).imp fun h => ⟨h.node, h.outcome.imp (⟨i, hi, ·⟩)⟩
  | map | properties => exact ⟨⟨rfl, .rfl_of _ fun _ _ => rfl⟩, rfl⟩

/-- Parts that stand further on are resolved as before, but for such errors. -/
theorem parts_sideBySide (r : Resolver σ) (path : ArgPath) (c : Collection ν α) (n : Nat)
    (items : List ν) (s : σ) :
    SideBySide Eq (AgreesBy Eq (r.Moved path n items.length c)) (inTurn (r.part path c) 0 items)
      (inTurn (r.part path c) n items) s s := by
  have run : SideBySide Eq (AgreesBy (List.Forall₂ Eq) (r.Moved path n items.length c))
      (inTurn (r.part path c) 0 items) (inTurn (r.part path c) n items) s s :=
    inTurn_sideBySide id (List.forall₂_same.2 fun _ _ => rfl) (by
      rintro i hi item _ rfl s _ rfl
      rw [Nat.zero_add]
      exact r.part_sideBySide path c n hi item s) rfl
  exact run.imp fun h => ⟨List.forall₂_eq_eq_eq ▸ h.node, h.outcome⟩

/-- A collection in two parts fails as its first part does, if that fails. -/
theorem resolve_append_error {c : Collection ν α} {xs : List ν} {node : Raw} {stop : Stop} {s' : σ}
    (first : r.resolve path (c.raw xs) s = (⟨node, .error stop⟩, s')) (ys : List ν) :
    ∃ xs', node = c.left xs' ∧
      r.resolve path (c.raw (xs ++ ys)) s = (⟨c.left (xs' ++ ys), .error stop⟩, s') := by
  rw [resolve_raw] at first
  rcases parts : inTurn (r.part path c) 0 xs s with ⟨⟨xs', stop' | as⟩, mid⟩ <;>
    rw [parts] at first <;> cases first
  refine ⟨xs', rfl, ?_⟩
  rw [resolve_raw, inTurn_append_error ys parts]
  rfl

/-- Once its first part has a value, a collection goes on with the second one. -/
theorem resolve_append_ok {c : Collection ν α} {xs : List ν} {node : Raw} {v : Value} {mid : σ}
    (first : r.resolve path (c.raw xs) s = (⟨node, .ok v⟩, mid)) (ys : List ν) :
    ∃ xs' ys' outcome outcome' s', node = c.left xs' ∧
      r.resolve path (c.raw ys) mid = (⟨c.left ys', outcome⟩, s') ∧
      r.resolve path (c.raw (xs ++ ys)) s = (⟨c.left (xs' ++ ys'), outcome'⟩, s') ∧
      Agree (r.Moved path xs.length ys.length c) (outcome.map v.extend) outcome' s' := by
  rw [resolve_raw] at first
  rcases parts : inTurn (r.part path c) 0 xs s with ⟨⟨xs', stop | as⟩, mid⟩ <;>
    rw [parts] at first <;> cases first
  obtain ⟨⟨node, agree⟩, state⟩ := r.parts_sideBySide path c xs.length ys mid
  rw [resolve_raw, resolve_raw, inTurn_append_ok ys parts, Nat.zero_add]
  -- the second part by itself, and where it stands
  generalize inTurn (r.part path c) 0 ys mid = alone at node agree state
  generalize inTurn (r.part path c) xs.length ys mid = behind at node agree state
  refine ⟨xs', alone.1.node, alone.1.outcome.map c.value,
    (behind.1.outcome.map (as ++ ·)).map c.value, alone.2, rfl, rfl, by rw [node, state], ?_⟩
  generalize alone.1.outcome = x at agree
  generalize behind.1.outcome = y at agree
  cases agree with
  | exhausted => exact .exhausted _
  | error h => exact .error h
  | ok bs =>
      change Agree _ (.ok ((c.value as).extend (c.value bs))) (.ok (c.value (as ++ bs))) _
      rw [c.value_append]
      exact .ok _ _

/-- How a collection in two parts is resolved, from a state. -/
inductive InTwoParts (r : Resolver σ) (path : ArgPath) (c : Collection ν α) (xs ys : List ν)
    (s : σ) : Prop where
  /-- The first part fails, and with it the whole; the second part is not touched. -/
  | fails {xs' : List ν} {stop : Stop} {s' : σ}
      (first : r.resolve path (c.raw xs) s = (⟨c.left xs', .error stop⟩, s'))
      (whole : r.resolve path (c.raw (xs ++ ys)) s = (⟨c.left (xs' ++ ys), .error stop⟩, s'))
      (calls : r.calls path (c.raw (xs ++ ys)) s = r.calls path (c.raw xs) s)
  /-- The first part has a value, and the second is resolved from where it ended. -/
  | goesOn {xs' ys' : List ν} {v : Value} {outcome outcome' : Except Stop Value} {mid s' : σ}
      (first : r.resolve path (c.raw xs) s = (⟨c.left xs', .ok v⟩, mid))
      (second : r.resolve path (c.raw ys) mid = (⟨c.left ys', outcome⟩, s'))
      (whole : r.resolve path (c.raw (xs ++ ys)) s = (⟨c.left (xs' ++ ys'), outcome'⟩, s'))
      (value : Agree (r.Moved path xs.length ys.length c) (outcome.map v.extend) outcome' s')
      (calls : r.calls path (c.raw (xs ++ ys)) s =
        r.calls path (c.raw xs) s ++ r.calls path (c.raw ys) mid)

/-- **A collection in two parts is resolved part by part.** -/
theorem resolve_append (r : Resolver σ) (path : ArgPath) (c : Collection ν α) (xs ys : List ν)
    (s : σ) : r.InTwoParts path c xs ys s := by
  obtain ⟨same, state⟩ := r.resolve_traced path (c.raw xs) s []
  rcases traced : r.traced.resolve path (c.raw xs) ⟨s, []⟩ with ⟨node', mid', calls⟩
  have callsBefore : r.calls path (c.raw xs) s = calls := by rw [Resolver.calls, traced]
  rw [traced] at same state
  rcases first : r.resolve path (c.raw xs) s with ⟨⟨node, stop | v⟩, mid⟩ <;>
    rw [first] at same state <;> cases same <;> cases state
  · obtain ⟨xs', rfl, whole⟩ := resolve_append_error first ys
    obtain ⟨_, -, wholeTraced⟩ := resolve_append_error traced ys
    refine .fails first whole ?_
    rw [callsBefore, Resolver.calls, wholeTraced]
  · obtain ⟨xs', ys', outcome, outcome', s', rfl, second, whole, value⟩ :=
      resolve_append_ok first ys
    obtain ⟨_, _, _, _, _, -, secondTraced, wholeTraced, -⟩ := resolve_append_ok traced ys
    refine .goesOn first second whole value ?_
    rw [callsBefore, ← r.calls_after, secondTraced, Resolver.calls, wholeTraced]

end Resolver

end Wiring
