import Wiring.Proofs.Coercion
import Wiring.Proofs.Container.Along
import Wiring.Proofs.Resolver.Leaves

/-!
# Containers — what an object is made of

The arguments and properties of an object are put together of what the leaves of its blueprint came
to (`Chain.Holds`).  **An object that is made has its leaves resolved one after the other, each of
them once, and holds what they came to** (`create_leaves`).
-/

namespace Wiring.Chain

open Wiring.Action (valueOf)

/-- The first value converted into the type is the second. -/
def Coerced (ty : Ty) (v w : Value) : Prop :=
  v.coerce ty = .ok w

/-- The bean is an object of the blueprint and has the name.  What it holds is put together of the
values of the blueprint's leaves. -/
inductive Holds (name : String) (b : Blueprint) : List Value → Managed → Prop where
  | made {id : ObjectId} {args argLeaves propertyLeaves : List Value}
    {properties : List (String × Value)}
    (arguments : Raw.AssemblesAll Coerced .any b.args argLeaves args)
    (names : properties.map Prod.fst = b.properties.map Prod.fst)
    (values : Raw.AssemblesAll Coerced .any (b.properties.map Prod.snd) propertyLeaves
      (properties.map Prod.snd)) :
    Holds name b (argLeaves ++ propertyLeaves) (manage (b.className.getD "")
      (.object (.built id name (b.className.getD "object") args properties)))

/-- A value is converted into `any` by leaving it as it is. -/
theorem coerced_any (v : Value) : Coerced .any v v :=
  Value.coerce_of_inhabits (.any v)

/-- A resolver of the chain converts elements by coercion. -/
theorem coerced_of_converts {make : Maker} {evaluation : Evaluation} {r : Resolver Chain}
    (hr : r.collaborators = collaborators make evaluation) {ty : Ty} {v w : Value}
    (h : r.Converts ty v w) : Coerced ty v w := by
  obtain ⟨path, s, s', hrun⟩ := h
  unfold Resolver.convertElement at hrun
  split at hrun
  next any =>
    cases hrun
    cases ty with
    | any => exact coerced_any v
    | _ => cases any
  next =>
    have hrun := Action.ok_of_mapError hrun
    rw [hr] at hrun
    exact (Action.ok_of_ofExcept hrun).1

/-- A resolver of the chain evaluates the text of a name where it is. -/
theorem ok_of_evaluateName {make : Maker} {evaluation : Evaluation} {r : Resolver Chain}
    (hr : r.collaborators = collaborators make evaluation) {text found : String}
    {chain after : Chain} (h : (r.evaluateName text).run chain = (.ok found, after)) :
    after = chain ∧ ∃ v, evaluation.evaluate chain.own.placeholders text = .ok v ∧
      found = v.text := by
  obtain ⟨c, bean, blueprint, naming⟩ := r
  obtain rfl : c = collaborators make evaluation := hr
  obtain ⟨v, s, hv, hname⟩ := Action.ok_of_bind h
  obtain ⟨hv, rfl⟩ := Action.ok_of_ofExcept hv
  cases hname
  exact ⟨rfl, v, hv, rfl⟩

section Values

variable {Q : Container → Container → Prop} [IsPreorder Container Q] {make : Maker}
  {r : Resolver Chain}

/-- A value of an object is resolved leaf by leaf. -/
theorem resolve_leaves (hr : r.collaborators = collaborators make) (hgoes : r.GoesAlong (Each Q))
    {path : ArgPath} {raw : Raw} {v : Value} {s s' : Chain}
    (h : (valueOf (r.resolve path raw)).run s = (.ok v, s')) :
    ∃ vs, OneByOne (Each Q) r.Resolves raw.leaves vs s s' ∧ raw.Assembles Coerced vs v := by
  obtain ⟨vs, leaves, value⟩ := Resolver.resolve_leaves hgoes path raw h
  exact ⟨vs, leaves, value.imp (coerced_of_converts hr)⟩

theorem resolveArgs_leaves (hr : r.collaborators = collaborators make)
    (hgoes : r.GoesAlong (Each Q)) :
    ∀ (raws : List Raw) (i : Nat) {s s' : Chain} {args : List Value},
      (valueOf (resolveArgs r i raws)).run s = (.ok args, s') →
        ∃ vs, OneByOne (Each Q) r.Resolves (Raw.leavesAll raws) vs s s' ∧
          Raw.AssemblesAll Coerced .any raws vs args
  | [], _, s, _, _, h => by
      cases h
      exact ⟨[], .done (refl_of _ s), .nil _⟩
  | raw :: raws, i, s, s', args, h => by
      rw [valueOf_resolveArgs_cons] at h
      obtain ⟨v, mid, hvalue, h⟩ := Action.ok_of_bind h
      obtain ⟨args', after, hrest, h⟩ := Action.ok_of_bind h
      cases h
      obtain ⟨vs, leaves, value⟩ := resolve_leaves hr hgoes hvalue
      obtain ⟨vs', leaves', rest⟩ := resolveArgs_leaves hr hgoes raws (i + 1) hrest
      exact ⟨vs ++ vs', leaves.append leaves', .cons value (coerced_any v) rest⟩

theorem resolveProperties_leaves (hr : r.collaborators = collaborators make)
    (hgoes : r.GoesAlong (Each Q)) :
    ∀ (ps : List (String × Raw)) {s s' : Chain} {properties : List (String × Value)},
      (valueOf (resolveProperties r ps)).run s = (.ok properties, s') →
        ∃ vs, OneByOne (Each Q) r.Resolves (Raw.leavesAll (ps.map Prod.snd)) vs s s' ∧
          properties.map Prod.fst = ps.map Prod.fst ∧
          Raw.AssemblesAll Coerced .any (ps.map Prod.snd) vs (properties.map Prod.snd)
  | [], s, _, _, h => by
      cases h
      exact ⟨[], .done (refl_of _ s), rfl, .nil _⟩
  | (name, raw) :: ps, s, s', properties, h => by
      rw [valueOf_resolveProperties_cons] at h
      obtain ⟨v, mid, hvalue, h⟩ := Action.ok_of_bind h
      obtain ⟨properties', after, hrest, h⟩ := Action.ok_of_bind h
      cases h
      obtain ⟨vs, leaves, value⟩ := resolve_leaves hr hgoes hvalue
      obtain ⟨vs', leaves', names, rest⟩ := resolveProperties_leaves hr hgoes ps hrest
      exact ⟨vs ++ vs', leaves.append leaves', congrArg (name :: ·) names,
        .cons value (coerced_any v) rest⟩

end Values

/-! ### Objects -/

section Objects

variable {Q : Container → Container → Prop} [IsPreorder Container Q] {free : Prop} {depth : Nat}
  {name : String} {b node : Blueprint} {start final : Chain}

theorem objectResolver_goesAlong (hQ : Container.WorkAlong Q free) (depth : Nat) (name : String)
    (b : Blueprint) : (objectResolver depth name b).GoesAlong (Each Q) :=
  goesAlong hQ (create_along hQ depth) rfl

/-- The values of an object are resolved leaf by leaf, first the arguments and then the
properties. -/
theorem instantiate_leaves (hQ : Container.WorkAlong Q free) {v : Value}
    (h : instantiate (collaborators (create depth)) name b start = (⟨node, .ok v⟩, final)) :
    ∃ vs, OneByOne (Each Q) (objectResolver depth name b).Resolves b.leaves vs start final ∧
      Holds name b vs (manage (b.className.getD "") v) := by
  have hgoes := objectResolver_goesAlong hQ depth name b
  have h := Action.run_valueOf_eq_ok.2 ⟨node, h⟩
  rw [valueOf_instantiate] at h
  obtain ⟨args, mid, hargs, h⟩ := Action.ok_of_bind h
  obtain ⟨properties, after, hproperties, h⟩ := Action.ok_of_bind h
  have hnew := newObject_along hQ name (b.className.getD "object") args properties after
  cases h
  obtain ⟨vs, leaves, arguments⟩ := resolveArgs_leaves rfl hgoes b.args 0 hargs
  obtain ⟨vs', leaves', names, values⟩ :=
    resolveProperties_leaves rfl hgoes b.properties hproperties
  exact ⟨vs ++ vs', (leaves.append leaves').after hnew, .made arguments names values⟩

/-- **An object that is made has its leaves resolved one after the other, each of them once, and
holds what they came to.** -/
theorem create_leaves (hQ : Container.WorkAlong Q free) {bean : Managed}
    (h : create (depth + 1) name b start = (⟨node, .ok bean⟩, final)) :
    ∃ vs, OneByOne (Each Q) (objectResolver depth name b).Resolves b.leaves vs start final ∧
      Holds name b vs bean := by
  by_cases sound : b.className.getD "" = failingClass
  · rw [run_create_failing sound] at h
    cases h
  · rcases hvalues : instantiate (collaborators (create depth)) name b (start.beginning name b) with
      ⟨⟨left, stop | v⟩, mid⟩
    · rw [run_create_stopped sound hvalues] at h
      cases h
    · have hmade := run_create_made sound hvalues
      have hnote : Each Q mid (mid.modifyOwn fun c => c.note (.made name b)) :=
        ⟨hQ.made hmade rfl, List.forall₂_refl mid.ancestors⟩
      rw [hmade] at h
      cases h
      obtain ⟨vs, leaves, holds⟩ := instantiate_leaves hQ hvalues
      exact ⟨vs, (leaves.before (each_beginning hQ name b start)).after hnote, holds⟩

end Objects

end Wiring.Chain
