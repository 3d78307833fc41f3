import Wiring.Proofs.Blueprint.Growth
import Wiring.Container.Create

/-!
# Resolver — growth of raw values

Resolution leaves the raw value it is given with more memory and no other change, whatever the
collaborators do and whether it succeeds or fails (`resolve_grows`).  So does the making of an
object leave its blueprint (`instantiate_grows`, `create_grows`).
-/

namespace Wiring

variable {σ α β ν : Type} {P : β → Prop} {Q : α → Prop}

/-- Whatever state the computation starts from, its result satisfies `P`. -/
def Yields (P : α → Prop) (x : StateM σ α) : Prop :=
  ∀ s, P (x s).1

theorem Yields.pure {a : α} (h : Q a) : Yields Q (Pure.pure a : StateM σ α) := fun _ => h

theorem Yields.bind {x : StateM σ α} {f : α → StateM σ β} (hx : Yields Q x)
    (hf : ∀ a, Q a → Yields P (f a)) : Yields P (x >>= f) := fun s => hf _ (hx s) (x s).2

/-- What follows does not depend on the result. -/
theorem Yields.after {x : StateM σ α} {f : α → StateM σ β} (hf : ∀ a, Yields P (f a)) :
    Yields P (x >>= f) := fun s => hf (x s).1 (x s).2

/-- The computation leaves a node that satisfies `P`. -/
def Leaves {α : Type} (P : ν → Prop) (x : StateM σ (Resolved ν α)) : Prop :=
  Yields (fun a => P a.node) x

namespace Resolver

variable {r : Resolver σ}

theorem grows_observed (l : Literal) (text : String) (v : Value) : l.Grows (observed l text v) := by
  rw [observed]
  split
  · exact .refl l
  · exact ⟨rfl, rfl, .refl _, fun _ => rfl⟩

theorem grows_remember (l : Literal) (ty : Ty) : l.Grows (l.remember ty) :=
  ⟨rfl, rfl, fun known h => by rw [Literal.remember, h]; rfl, id⟩

theorem evaluateLiteral_grows (l : Literal) : Leaves l.Grows (r.evaluateLiteral l) := by
  rw [evaluateLiteral]
  split
  · exact .pure (.refl l)
  · refine .after fun outcome => ?_
    cases outcome with
    | error stop => exact .pure (.refl l)
    | ok v => exact .pure (grows_observed l _ v)

theorem resolveLiteral_grows (path : ArgPath) (l : Literal) :
    Leaves l.Grows (r.resolveLiteral path l) := by
  refine (evaluateLiteral_grows l).bind fun evaluated hl => ?_
  cases evaluated.outcome with
  | error stop => exact .pure hl
  | ok v =>
      refine .after fun outcome => ?_
      match outcome with
      | .error stop => exact .pure hl
      | .ok none => exact .pure hl
      | .ok (some ty) => exact fun s => hl.trans (grows_remember _ ty)

theorem resolveProperties_grows (path : ArgPath) : ∀ es : List (Literal × Literal),
    Leaves (Raw.GrowsLiterals es) (r.resolveProperties path es)
  | [] => .pure rfl
  | (k, v) :: es => by
      rw [resolveProperties]
      refine (evaluateLiteral_grows k).bind fun key hk => ?_
      cases key.outcome with
      | error stop => exact .pure ⟨hk, .refl v, .refl es⟩
      | ok kv =>
          refine (evaluateLiteral_grows v).bind fun value hv => ?_
          cases value.outcome with
          | error stop => exact .pure ⟨hk, hv, .refl es⟩
          | ok vv =>
              dsimp only
              split
              · exact .pure ⟨hk, hv, .refl es⟩
              · exact (resolveProperties_grows path es).bind fun rest hes => .pure ⟨hk, hv, hes⟩

theorem elementType_remembered (path : ArgPath) (typeName : Option String) (ty : Ty) :
    r.elementType path typeName (some ty) = pure ty := rfl

mutual

/-- **Resolution leaves a raw value with more memory and no other change.** -/
theorem resolve_grows (path : ArgPath) : ∀ raw : Raw, Leaves raw.Grows (r.resolve path raw)
  | .null => .pure rfl
  | .literal l => by
      rw [resolve]
      exact (resolveLiteral_grows path l).bind fun left hl => .pure hl
  | .value _ | .reference _ | .nameReference _ | .dependency _ | .holder _ _ _ _
  | .nested _ _ => fun _ => rfl
  | .array typeName remembered es => by
      rw [resolve]
      cases remembered with
      | none =>
          refine .after fun outcome => ?_
          cases outcome with
          | error stop => exact .pure (.refl (.array typeName none es))
          | ok ty =>
              exact (resolveElements_grows path ty 0 es).bind fun left hes =>
                .pure ⟨rfl, nofun, hes⟩
      | some ty =>
          rw [elementType_remembered, ExceptT.run_pure, pure_bind]
          exact (resolveElements_grows path ty 0 es).bind fun left hes => .pure ⟨rfl, .refl _, hes⟩
  | .list es => by
      rw [resolve_list]
      exact (resolveElements_grows path .any 0 es).bind fun left hes => .pure hes
  | .set es => by
      rw [resolve_set]
      exact (resolveElements_grows path .any 0 es).bind fun left hes => .pure hes
  | .map es => by
      rw [resolve]
      exact (resolveEntries_grows path es).bind fun left hes => .pure hes
  | .properties es => by
      rw [resolve]
      exact (resolveProperties_grows path es).bind fun left hes => .pure hes

theorem resolveElements_grows (path : ArgPath) (ty : Ty) : ∀ (i : Nat) (es : List Raw),
    Leaves (Raw.GrowsAll es) (r.resolveElements path ty i es)
  | _, [] => .pure rfl
  | i, e :: es => by
      rw [resolveElements]
      refine (resolve_grows (path.index i) e).bind fun first he => ?_
      cases first.outcome with
      | error stop => exact .pure ⟨he, .refl es⟩
      | ok v =>
          refine .after fun converted => ?_
          cases converted with
          | error stop => exact .pure ⟨he, .refl es⟩
          | ok v =>
              exact (resolveElements_grows path ty (i + 1) es).bind fun rest hes => .pure ⟨he, hes⟩

theorem resolveEntries_grows (path : ArgPath) : ∀ es : List (Raw × Raw),
    Leaves (Raw.GrowsEntries es) (r.resolveEntries path es)
  | [] => .pure rfl
  | (k, v) :: es => by
      rw [resolveEntries]
      refine (resolve_grows path k).bind fun key hk => ?_
      cases key.outcome with
      | error stop => exact .pure ⟨hk, .refl v, .refl es⟩
      | ok kv =>
          refine (resolve_grows (path.key kv) v).bind fun value hv => ?_
          cases value.outcome with
          | error stop => exact .pure ⟨hk, hv, .refl es⟩
          | ok vv => exact (resolveEntries_grows path es).bind fun rest hes => .pure ⟨hk, hv, hes⟩

end

end Resolver

namespace Chain

variable {r : Resolver Chain}

theorem resolveArgs_grows : ∀ (i : Nat) (raws : List Raw),
    Leaves (Raw.GrowsAll raws) (resolveArgs r i raws)
  | _, [] => .pure rfl
  | i, raw :: raws => by
      rw [resolveArgs]
      refine (Resolver.resolve_grows (.root (argName i)) raw).bind fun first he => ?_
      cases first.outcome with
      | error stop => exact .pure ⟨he, .refl raws⟩
      | ok v => exact (resolveArgs_grows (i + 1) raws).bind fun rest hes => .pure ⟨he, hes⟩

theorem resolveProperties_grows : ∀ ps : List (String × Raw),
    Leaves (Raw.GrowsProperties ps) (resolveProperties r ps)
  | [] => .pure rfl
  | (name, raw) :: ps => by
      rw [resolveProperties]
      refine (Resolver.resolve_grows (.root name) raw).bind fun first he => ?_
      cases first.outcome with
      | error stop => exact .pure ⟨rfl, he, .refl ps⟩
      | ok v => exact (resolveProperties_grows ps).bind fun rest hps => .pure ⟨rfl, he, hps⟩

theorem instantiate_grows (c : Collaborators Chain) (name : String) (b : Blueprint) :
    Leaves b.Grows (instantiate c name b) := by
  refine (resolveArgs_grows 0 b.args).bind fun args hargs => ?_
  cases args.outcome with
  | error stop => exact .pure { BlueprintOf.Grows.refl b with args := hargs }
  | ok argValues =>
      refine (resolveProperties_grows b.properties).bind fun properties hproperties => ?_
      have hleft : b.Grows { b with args := args.node, properties := properties.node } :=
        { BlueprintOf.Grows.refl b with args := hargs, properties := hproperties }
      cases properties.outcome with
      | error stop => exact .pure hleft
      | ok values => exact .after fun object => .pure hleft

theorem build_grows (make : Maker) (name : String) (b : Blueprint) :
    Leaves b.Grows (build make name b) := by
  refine .after fun _ => ?_
  dsimp only
  split
  · exact fun s => .refl b
  · refine (instantiate_grows (collaborators make) name b).bind fun built hb => ?_
    cases built.outcome with
    | error stop => exact .pure hb
    | ok v => exact .after fun _ => .pure hb

/-- **The making of an object leaves its blueprint with more memory and no other change.** -/
theorem create_grows : ∀ (depth : Nat) (name : String) (b : Blueprint),
    Leaves b.Grows (create depth name b)
  | 0, _, b => .pure (.refl b)
  | depth + 1, name, b => build_grows (create depth) name b

end Chain

end Wiring
