import Wiring.Proofs.Resolver.Along
import Wiring.Proofs.Resolver.Values

/-!
# Resolver — the leaves of a raw tree

The leaves of a raw value are what stands in its collections, at any depth: elements, keys and
values that are no lists, sets, maps or arrays themselves.  A nested blueprint is a leaf; what
stands inside it belongs to the object made of it.  A leaf that occurs several times is listed as
often.

**A tree that has a value is resolved leaf by leaf, and its value is put together of what the leaves
came to** (`resolve_leaves`).  `OneByOne` says the first: each occurrence of a leaf is resolved by
itself, from a state that the one before it has led to.  `Raw.Assembles` says the second.
-/

namespace Wiring

namespace Raw

mutual

/-- What stands in a raw value's collections. -/
def leaves : Raw → List Raw
  | array _ _ es => leavesAll es
  | list es => leavesAll es
  | set es => leavesAll es
  | map es => leavesEntries es
  | raw => [raw]
termination_by structural raw => raw

/-- What stands in the elements. -/
def leavesAll : List Raw → List Raw
  | [] => []
  | e :: es => leaves e ++ leavesAll es
termination_by structural es => es

/-- What stands in the keys and values. -/
def leavesEntries : List (Raw × Raw) → List Raw
  | [] => []
  | (k, v) :: es => leaves k ++ (leaves v ++ leavesEntries es)
termination_by structural es => es

end

/-! ### Values of trees -/

mutual

/-- The value of the tree is put together of the values of its leaves, one for each occurrence, in
their order.  `C` tells what comes of an element that is converted. -/
inductive Assembles (C : Ty → Value → Value → Prop) : Raw → List Value → Value → Prop where
  | leaf {raw : Raw} {v : Value} (single : raw.leaves = [raw]) : Assembles C raw [v] v
  | array {typeName : Option String} {remembered : Option Ty} {ty : Ty} {es : List Raw}
      {vs ws : List Value} (elements : AssemblesAll C ty es vs ws) :
      Assembles C (.array typeName remembered es) vs (.array ty ws)
  | list {es : List Raw} {vs ws : List Value} (elements : AssemblesAll C .any es vs ws) :
      Assembles C (.list es) vs (.list ws)
  | set {es : List Raw} {vs ws : List Value} (elements : AssemblesAll C .any es vs ws) :
      Assembles C (.set es) vs (Value.setOf ws)
  | map {es : List (Raw × Raw)} {vs : List Value} {entries : List (Value × Value)}
      (parts : AssemblesEntries C es vs entries) : Assembles C (.map es) vs (Value.mapOf entries)

/-- The values of the elements are put together of those of the leaves, and converted. -/
inductive AssemblesAll (C : Ty → Value → Value → Prop) :
    Ty → List Raw → List Value → List Value → Prop where
  | nil (ty : Ty) : AssemblesAll C ty [] [] []
  | cons {ty : Ty} {e : Raw} {es : List Raw} {vs vs' ws : List Value} {v w : Value}
      (first : Assembles C e vs v) (converted : C ty v w) (rest : AssemblesAll C ty es vs' ws) :
      AssemblesAll C ty (e :: es) (vs ++ vs') (w :: ws)

/-- The keys and values of the entries are put together of the values of the leaves. -/
inductive AssemblesEntries (C : Ty → Value → Value → Prop) :
    List (Raw × Raw) → List Value → List (Value × Value) → Prop where
  | nil : AssemblesEntries C [] [] []
  | cons {k v : Raw} {es : List (Raw × Raw)} {ks vs vs' : List Value} {kv vv : Value}
      {entries : List (Value × Value)} (key : Assembles C k ks kv) (value : Assembles C v vs vv)
      (rest : AssemblesEntries C es vs' entries) :
      AssemblesEntries C ((k, v) :: es) (ks ++ (vs ++ vs')) ((kv, vv) :: entries)

end

section

variable {C D : Ty → Value → Value → Prop}

mutual

theorem Assembles.imp (himp : ∀ {ty v w}, C ty v w → D ty v w) :
    ∀ {raw : Raw} {vs : List Value} {v : Value}, Assembles C raw vs v → Assembles D raw vs v
  | _, _, _, .leaf single => .leaf single
  | _, _, _, .array elements => .array (elements.imp himp)
  | _, _, _, .list elements => .list (elements.imp himp)
  | _, _, _, .set elements => .set (elements.imp himp)
  | _, _, _, .map parts => .map (parts.imp himp)

theorem AssemblesAll.imp (himp : ∀ {ty v w}, C ty v w → D ty v w) :
    ∀ {ty : Ty} {es : List Raw} {vs ws : List Value},
      AssemblesAll C ty es vs ws → AssemblesAll D ty es vs ws
  | _, _, _, _, .nil ty => .nil ty
  | _, _, _, _, .cons first converted rest =>
      .cons (first.imp himp) (himp converted) (rest.imp himp)

theorem AssemblesEntries.imp (himp : ∀ {ty v w}, C ty v w → D ty v w) :
    ∀ {es : List (Raw × Raw)} {vs : List Value} {entries : List (Value × Value)},
      AssemblesEntries C es vs entries → AssemblesEntries D es vs entries
  | _, _, _, .nil => .nil
  | _, _, _, .cons hkey hvalue rest =>
      .cons (hkey.imp himp) (hvalue.imp himp) (rest.imp himp)

end

end

end Raw

/-- What stands in a blueprint's arguments and properties. -/
def BlueprintOf.leaves (b : Blueprint) : List Raw :=
  Raw.leavesAll b.args ++ Raw.leavesAll (b.properties.map Prod.snd)

/-! ### One after the other -/

/-- On the way from one state to another, each of the raw values comes to its value, one after the
other and each from a state of its own.  `P` tells how one does, and whatever is done before,
between and after them leads along `R`. -/
inductive OneByOne {σ : Type} (R : σ → σ → Prop) (P : Raw → Value → σ → σ → Prop) :
    List Raw → List Value → σ → σ → Prop where
  | done {s s' : σ} (rest : R s s') : OneByOne R P [] [] s s'
  | next {raw : Raw} {raws : List Raw} {v : Value} {vs : List Value} {s start stop s' : σ}
      (before : R s start) (here : P raw v start stop) (rest : OneByOne R P raws vs stop s') :
      OneByOne R P (raw :: raws) (v :: vs) s s'

namespace OneByOne

variable {σ : Type} {R : σ → σ → Prop} {P Q : Raw → Value → σ → σ → Prop}
  {raws raws' : List Raw} {vs vs' : List Value} {s mid s' : σ}

section Preorder

variable [IsPreorder σ R]

theorem before (hb : R s mid) (h : OneByOne R P raws vs mid s') : OneByOne R P raws vs s s' := by
  cases h with
  | done rest => exact .done (trans_of R hb rest)
  | next between here rest => exact .next (trans_of R hb between) here rest

theorem append (h : OneByOne R P raws vs s mid) (h' : OneByOne R P raws' vs' mid s') :
    OneByOne R P (raws ++ raws') (vs ++ vs') s s' := by
  induction h with
  | done rest => exact h'.before rest
  | next between here _ ih => exact .next between here (ih h')

theorem after (h : OneByOne R P raws vs s mid) (ha : R mid s') : OneByOne R P raws vs s s' := by
  have whole := h.append (.done ha)
  rwa [List.append_nil, List.append_nil] at whole

theorem single {raw : Raw} {v : Value} (h : P raw v s s') : OneByOne R P [raw] [v] s s' :=
  .next (refl_of R s) h (.done (refl_of R s'))

theorem along (hP : ∀ {raw v a b}, P raw v a b → R a b) (h : OneByOne R P raws vs s s') :
    R s s' := by
  induction h with
  | done rest => exact rest
  | next between here _ ih => exact trans_of R (trans_of R between (hP here)) ih

/-- What is known of one of them may depend on where all of them start and end. -/
theorem imp_within {start final : σ} (hP : ∀ {raw v a b}, P raw v a b → R a b)
    (himp : ∀ {raw v a b}, R start a → P raw v a b → R b final → Q raw v a b)
    (h : OneByOne R P raws vs s s') (hs : R start s) (hs' : R s' final) :
    OneByOne R Q raws vs s s' := by
  induction h with
  | done rest => exact .done rest
  | next between here rest ih =>
      have hstart := trans_of R hs between
      exact .next between (himp hstart here (trans_of R (rest.along hP) hs'))
        (ih (trans_of R hstart (hP here)) hs')

end Preorder

theorem imp (himp : ∀ {raw v a b}, P raw v a b → Q raw v a b) (h : OneByOne R P raws vs s s') :
    OneByOne R Q raws vs s s' := by
  induction h with
  | done rest => exact .done rest
  | next between here _ ih => exact .next between (himp here) ih

end OneByOne

open Wiring.Action (valueOf)

namespace Resolver

variable {σ : Type} {R : σ → σ → Prop} {r : Resolver σ}

/-- The raw value comes to the value when it is resolved from the first state, at some path, and
that leads to the second. -/
def Resolves (r : Resolver σ) (raw : Raw) (v : Value) (s s' : σ) : Prop :=
  ∃ path node, r.resolve path raw s = (⟨node, .ok v⟩, s')

/-- The second value may come of converting the first. -/
def Converts (r : Resolver σ) (ty : Ty) (v w : Value) : Prop :=
  ∃ path s s', (r.convertElement path ty v).run s = (.ok w, s')

theorem Resolves.along [IsPreorder σ R] (h : r.GoesAlong R) {raw : Raw} {v : Value} {s s' : σ}
    (resolves : r.Resolves raw v s s') : R s s' := by
  obtain ⟨path, node, hrun⟩ := resolves
  exact (resolve_along h path raw).of_run hrun

/-- The leaves are resolved one after the other, and their values make up the value. -/
def LeafByLeaf (R : σ → σ → Prop) (r : Resolver σ) (raw : Raw) (v : Value) (s s' : σ) : Prop :=
  ∃ vs, OneByOne R r.Resolves raw.leaves vs s s' ∧ raw.Assembles r.Converts vs v

variable [IsPreorder σ R]

theorem leafByLeaf_single {raw : Raw} {path : ArgPath} {v : Value} {s s' : σ}
    (single : raw.leaves = [raw]) (h : (valueOf (r.resolve path raw)).run s = (.ok v, s')) :
    r.LeafByLeaf R raw v s s' := by
  refine ⟨[v], ?_, .leaf single⟩
  rw [single]
  exact .single ⟨path, Action.run_valueOf_eq_ok.1 h⟩

mutual

/-- **A tree that has a value is resolved leaf by leaf, and its value is put together of what the
leaves came to.** -/
theorem resolve_leaves (hgoes : r.GoesAlong R) (path : ArgPath) :
    ∀ (raw : Raw) {s s' : σ} {v : Value},
      (valueOf (r.resolve path raw)).run s = (.ok v, s') → r.LeafByLeaf R raw v s s'
  | .null, _, _, _, h | .literal _, _, _, _, h | .value _, _, _, _, h | .reference _, _, _, _, h
  | .nameReference _, _, _, _, h | .dependency _, _, _, _, h | .holder _ _ _ _, _, _, _, h
  | .nested _ _, _, _, _, h | .properties _, _, _, _, h => leafByLeaf_single rfl h
  | .array typeName remembered es, s, s', v, h => by
      rw [valueOf_resolve_array] at h
      obtain ⟨ty, mid, htype, h⟩ := Action.ok_of_bind h
      obtain ⟨ws, after, helements, h⟩ := Action.ok_of_bind h
      cases h
      have hbefore := (elementType_along hgoes path typeName remembered).of_run htype
      obtain ⟨vs, leaves, elements⟩ := resolveElements_leaves hgoes path ty es 0 helements
      exact ⟨vs, leaves.before hbefore, .array elements⟩
  | .list es, s, s', v, h => by
      rw [valueOf_resolve_list] at h
      obtain ⟨ws, after, helements, h⟩ := Action.ok_of_bind h
      cases h
      obtain ⟨vs, leaves, elements⟩ := resolveElements_leaves hgoes path .any es 0 helements
      exact ⟨vs, leaves, .list elements⟩
  | .set es, s, s', v, h => by
      rw [valueOf_resolve_set] at h
      obtain ⟨ws, after, helements, h⟩ := Action.ok_of_bind h
      cases h
      obtain ⟨vs, leaves, elements⟩ := resolveElements_leaves hgoes path .any es 0 helements
      exact ⟨vs, leaves, .set elements⟩
  | .map es, s, s', v, h => by
      rw [valueOf_resolve_map] at h
      obtain ⟨entries, after, hentries, h⟩ := Action.ok_of_bind h
      cases h
      obtain ⟨vs, leaves, parts⟩ := resolveEntries_leaves hgoes path es hentries
      exact ⟨vs, leaves, .map parts⟩

theorem resolveElements_leaves (hgoes : r.GoesAlong R) (path : ArgPath) (ty : Ty) :
    ∀ (es : List Raw) (i : Nat) {s s' : σ} {ws : List Value},
      (valueOf (r.resolveElements path ty i es)).run s = (.ok ws, s') →
        ∃ vs, OneByOne R r.Resolves (Raw.leavesAll es) vs s s' ∧
          Raw.AssemblesAll r.Converts ty es vs ws
  | [], _, s, _, _, h => by
      cases h
      exact ⟨[], .done (refl_of R s), .nil ty⟩
  | e :: es, i, s, s', ws, h => by
      rw [valueOf_resolveElements_cons] at h
      obtain ⟨w, mid, hconverted, h⟩ := Action.ok_of_bind h
      obtain ⟨ws', after, hrest, h⟩ := Action.ok_of_bind h
      cases h
      obtain ⟨v, between, hvalue, hconvert⟩ := Action.ok_of_bind hconverted
      have hafter := (convertElement_along hgoes (path.index i) ty v).of_run hconvert
      obtain ⟨vs, leaves, first⟩ := resolve_leaves hgoes (path.index i) e hvalue
      obtain ⟨vs', leaves', rest⟩ := resolveElements_leaves hgoes path ty es (i + 1) hrest
      exact ⟨vs ++ vs', (leaves.after hafter).append leaves', .cons first ⟨_, _, _, hconvert⟩ rest⟩

theorem resolveEntries_leaves (hgoes : r.GoesAlong R) (path : ArgPath) :
    ∀ (es : List (Raw × Raw)) {s s' : σ} {entries : List (Value × Value)},
      (valueOf (r.resolveEntries path es)).run s = (.ok entries, s') →
        ∃ vs, OneByOne R r.Resolves (Raw.leavesEntries es) vs s s' ∧
          Raw.AssemblesEntries r.Converts es vs entries
  | [], s, _, _, h => by
      cases h
      exact ⟨[], .done (refl_of R s), .nil⟩
  | (k, v) :: es, s, s', entries, h => by
      rw [valueOf_resolveEntries_cons] at h
      obtain ⟨kv, mid, hkey, h⟩ := Action.ok_of_bind h
      obtain ⟨vv, mid', hvalue, h⟩ := Action.ok_of_bind h
      obtain ⟨entries', after, hrest, h⟩ := Action.ok_of_bind h
      cases h
      obtain ⟨ks, keyLeaves, key⟩ := resolve_leaves hgoes path k hkey
      obtain ⟨vs, valueLeaves, value⟩ := resolve_leaves hgoes (path.key kv) v hvalue
      obtain ⟨vs', leaves, rest⟩ := resolveEntries_leaves hgoes path es hrest
      exact ⟨ks ++ (vs ++ vs'), keyLeaves.append (valueLeaves.append leaves),
        .cons key value rest⟩

end

end Resolver

end Wiring
