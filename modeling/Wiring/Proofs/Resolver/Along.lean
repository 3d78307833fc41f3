import Wiring.Proofs.Action.Along
import Wiring.Resolver.Tree

/-!
# Resolver — along a relation

A resolver changes the state through its collaborators only.  `Resolver.GoesAlong R r` says that
whatever the resolver `r` asks of them leads along `R`.  A name found free for an inner bean is
taken at once: the search and the record of its owner are one step of this law, so that `R` may
tell between them.  A factory is unwrapped at once, so the law for it starts where the factory was
made.

**What the collaborators keep, resolution keeps** (`resolve_along`): from every state, for every
raw value at every path, whether there is a value or resolution stops.
-/

namespace Wiring.Resolver

variable {σ : Type} {R : σ → σ → Prop} {r : Resolver σ}

/-- The name found for an inner bean, taken for a part of the resolver's bean. -/
def claimName (r : Resolver σ) (proposed : String) : Action σ Unit := do
  let inner ← r.freshName proposed
  r.collaborators.registerContained inner r.bean

/-- What the resolver asks of its collaborators leads from a state to related ones. -/
structure GoesAlong (R : σ → σ → Prop) (r : Resolver σ) : Prop where
  containsBean (name : String) : Along R (r.collaborators.containsBean name)
  getByName (name : String) : Along R (r.collaborators.getByName name).run
  parent : Along R r.collaborators.parent
  parentByName {s : σ} {parent : Lookup σ} (name : String)
    (h : (r.collaborators.parent s).1 = some parent) : Along R (parent.getByName name).run
  parentByType {s : σ} {parent : Lookup σ} (ty : Ty)
    (h : (r.collaborators.parent s).1 = some parent) : Along R (parent.getByType ty).run
  resolveNamedByType (ty : Ty) : Along R (r.collaborators.resolveNamedByType ty).run
  resolveDependency (d : Dependency) : Along R (r.collaborators.resolveDependency d r.bean).run
  registerDependent (a b : String) : Along R (r.collaborators.registerDependent a b)
  registerContained (inner : String) : Along R (r.collaborators.registerContained inner r.bean)
  claimName (proposed : String) : Along R (r.claimName proposed).run
  mergeBlueprint (name : String) (nested : Blueprint) :
    Along R (r.collaborators.mergeBlueprint name nested r.blueprint).run
  createObject (name : String) (b : Blueprint) : Along R (r.collaborators.createObject name b).run
  /-- A factory is unwrapped when it has just been made. -/
  unwrapProduct {name : String} {b : Blueprint} {factory : Value} {s s' : σ}
    (made : (r.collaborators.createObject name b).run s = (.ok (.factory factory), s')) :
    R s' ((r.collaborators.unwrapProduct factory name (!b.synthetic)).run s').2
  loadType (name : String) : Along R (r.collaborators.loadType name).run
  evaluate (text : String) : Along R (r.evaluateText text).run
  coerce (v : Value) (ty : Ty) : Along R (r.collaborators.coerce v ty).run

variable [IsPreorder σ R]

/-! ### Texts and literals -/

theorem evaluateName_along (h : r.GoesAlong R) (name : String) :
    Along R (r.evaluateName name).run :=
  Action.along_bind (h.evaluate name) fun v => Action.along_pure v.text

theorem evaluateLiteral_along (h : r.GoesAlong R) (l : Literal) :
    Along R (r.evaluateLiteral l) := by
  unfold evaluateLiteral
  cases l.text with
  | none => exact along_pure _
  | some text =>
      refine along_bind (h.evaluate text) fun outcome => ?_
      cases outcome with
      | error stop => exact along_pure _
      | ok v => exact along_pure _

theorem targetType_along (h : r.GoesAlong R) (l : Literal) : Along R (r.targetType l).run := by
  unfold targetType
  split
  · exact Action.along_pure _
  · exact Action.along_bind (h.loadType _) fun ty => Action.along_pure _
  · exact Action.along_pure _

theorem resolveLiteral_along (h : r.GoesAlong R) (path : ArgPath) (l : Literal) :
    Along R (r.resolveLiteral path l) := by
  unfold resolveLiteral
  refine along_bind (evaluateLiteral_along h l) fun evaluated => ?_
  cases evaluated.outcome with
  | error stop => exact along_pure _
  | ok v =>
      refine along_bind (Action.along_mapError (targetType_along h l)) fun target => ?_
      match target with
      | .error stop => exact along_pure _
      | .ok none => exact along_pure _
      | .ok (some ty) => exact Action.along_leaving (Action.along_mapError (h.coerce v ty))

theorem resolveProperties_along (h : r.GoesAlong R) (path : ArgPath) :
    ∀ es : List (Literal × Literal), Along R (r.resolveProperties path es)
  | [] => along_pure _
  | (k, v) :: es => by
      rw [resolveProperties]
      refine along_bind (evaluateLiteral_along h k) fun key => ?_
      cases key.outcome with
      | error stop => exact along_pure _
      | ok kv =>
          refine along_bind (evaluateLiteral_along h v) fun value => ?_
          cases value.outcome with
          | error stop => exact along_pure _
          | ok vv =>
              dsimp only
              split
              · exact along_pure _
              · exact along_bind (resolveProperties_along h path es) fun rest => along_pure _

theorem resolveValue_along (h : r.GoesAlong R) (v : Value) : Along R (r.resolveValue v).run := by
  unfold resolveValue
  split
  · exact h.evaluate _
  · exact Action.along_bind (Action.along_mapM h.evaluate _) fun values => Action.along_pure _
  · exact Action.along_pure _

/-! ### References -/

theorem lookUpInParent_along (h : r.GoesAlong R) {s : σ} {parent : Lookup σ}
    (hp : (r.collaborators.parent s).1 = some parent) (ref : Reference) :
    Along R (r.lookUpInParent parent ref).run := by
  unfold lookUpInParent
  split
  · exact h.parentByType _ hp
  · exact Action.along_bind (evaluateName_along h _) fun name => h.parentByName name hp

theorem findHere_along (h : r.GoesAlong R) (ref : Reference) : Along R (r.findHere ref).run := by
  unfold findHere
  split
  · exact h.resolveNamedByType _
  · refine Action.along_bind (evaluateName_along h _) fun name => ?_
    exact Action.along_bind (h.getByName name) fun bean => Action.along_pure _

theorem lookUpHere_along (h : r.GoesAlong R) (ref : Reference) :
    Along R (r.lookUpHere ref).run := by
  refine Action.along_bind (findHere_along h ref) fun found => ?_
  exact Action.along_bind (Action.along_lift (h.registerDependent found.name r.bean))
    fun _ => Action.along_pure _

theorem followReference_along (h : r.GoesAlong R) (path : ArgPath) (ref : Reference) :
    Along R (r.followReference path ref).run := by
  unfold followReference
  split
  · refine Action.along_bind_lift h.parent fun s => ?_
    cases hp : (r.collaborators.parent s).1 with
    | none => exact Action.along_fail _
    | some parent => exact Action.along_mapError (lookUpInParent_along h hp ref)
  · exact Action.along_mapError (lookUpHere_along h ref)

theorem resolveReference_along (h : r.GoesAlong R) (path : ArgPath) (ref : Reference) :
    Along R (r.resolveReference path ref).run :=
  Action.along_bind (followReference_along h path ref) fun _ => Action.along_pure _

theorem resolveName_along (h : r.GoesAlong R) (path : ArgPath) (name : String) :
    Along R (r.resolveName path name).run := by
  refine Action.along_bind (evaluateName_along h name) fun name => ?_
  refine Action.along_bind (Action.along_lift (h.containsBean name)) fun known => ?_
  cases known with
  | true => exact Action.along_pure _
  | false => exact Action.along_fail _

theorem registerCandidates_along (h : r.GoesAlong R) :
    ∀ names : List String, Along R (r.registerCandidates names)
  | [] => along_pure _
  | name :: names => by
      rw [registerCandidates]
      refine along_bind (h.containsBean name) fun known => ?_
      cases known with
      | false => exact registerCandidates_along h names
      | true =>
          exact along_bind (h.registerDependent name r.bean) fun _ =>
            registerCandidates_along h names

theorem resolveDependency_along (h : r.GoesAlong R) (d : Dependency) :
    Along R (r.resolveDependency d).run := by
  refine Action.along_bind (h.resolveDependency d) fun selection => ?_
  exact Action.along_bind (Action.along_lift (registerCandidates_along h _))
    fun _ => Action.along_pure _

/-! ### Inner beans -/

theorem prepare_along (h : r.GoesAlong R) (inner : String) :
    ∀ names : List String, Along R (r.prepare inner names).run
  | [] => Action.along_pure _
  | name :: names => by
      rw [prepare]
      refine Action.along_bind (Action.along_lift (h.registerDependent name inner)) fun _ => ?_
      exact Action.along_bind (h.getByName name) fun _ => prepare_along h inner names

theorem makeInner_along (h : r.GoesAlong R) (inner : String) (merged : Blueprint) :
    Along R (r.makeInner inner merged).run := by
  refine Action.along_bind (prepare_along h inner merged.dependsOn) fun _ => ?_
  refine Action.along_bind_of_run (h.createObject inner merged) fun {s made s'} hmade => ?_
  cases made with
  | factory factory =>
      exact Action.rest_of_bind (fun _ => Action.along_pure _) (h.unwrapProduct hmade)
  | value v => exact refl_of R s'
  | null => exact refl_of R s'

theorem createInner_along (h : r.GoesAlong R) (inner : String) (merged : Blueprint) :
    Along R (r.createInner inner merged).run :=
  Action.along_bind (Action.along_lift (h.registerContained inner)) fun _ =>
    makeInner_along h inner merged

theorem createInner_state (path : ArgPath) (inner : String) (merged : Blueprint) (s : σ) :
    (((r.createInner inner merged).mapError (r.innerError path inner merged.className)).run s).2 =
      ((r.makeInner inner merged).run (r.collaborators.registerContained inner r.bean s).2).2 :=
  Action.mapError_state _ _ s

/-- A singleton goes along although the search for its name alone need not: no step comes between
the search and the record of the owner. -/
theorem freshInner_along (h : r.GoesAlong R) (path : ArgPath) (proposed : String)
    (merged : Blueprint) :
    Along R (do
      let inner ← r.freshName proposed
      (r.createInner inner merged).mapError (r.innerError path inner merged.className) :
        Action σ Value).run := by
  intro s
  have claimed := h.claimName proposed s
  change R s (((r.freshName proposed >>= fun inner => (r.createInner inner merged).mapError
    (r.innerError path inner merged.className)).run s).2)
  rw [claimName, Action.run_bind] at claimed
  rw [Action.run_bind]
  rcases found : (r.freshName proposed).run s with ⟨stop | inner, s'⟩
  · rwa [found] at claimed
  · rw [found] at claimed
    dsimp only at claimed ⊢
    -- the record of the owner belongs to the claim, the rest of the work follows it
    rw [createInner_state]
    exact trans_of R claimed (makeInner_along h inner merged _)

theorem resolveInner_along (h : r.GoesAlong R) (path : ArgPath) (proposed : String)
    (nested : Blueprint) : Along R (r.resolveInner path proposed nested).run := by
  unfold resolveInner innerName
  refine Action.along_bind (Action.along_mapError (h.mergeBlueprint _ _)) fun merged => ?_
  split
  · exact freshInner_along h path proposed merged
  · exact Action.along_mapError (createInner_along h proposed merged)

/-! ### Raw trees -/

theorem elementType_along (h : r.GoesAlong R) (path : ArgPath) (typeName : Option String)
    (remembered : Option Ty) : Along R (r.elementType path typeName remembered).run := by
  unfold elementType
  split
  · exact Action.along_pure _
  · exact Action.along_mapError (h.loadType _)
  · exact Action.along_pure _

theorem convertElement_along (h : r.GoesAlong R) (path : ArgPath) (ty : Ty) (v : Value) :
    Along R (r.convertElement path ty v).run := by
  unfold convertElement
  split
  · exact Action.along_pure _
  · exact Action.along_mapError (h.coerce v ty)

mutual

/-- **What the collaborators keep, resolution keeps.** -/
theorem resolve_along (h : r.GoesAlong R) (path : ArgPath) :
    ∀ raw : Raw, Along R (r.resolve path raw)
  | .null => along_pure _
  | .literal l => along_bind (resolveLiteral_along h path l) fun _ => along_pure _
  | .value v => Action.along_leaving (resolveValue_along h v)
  | .reference ref => Action.along_leaving (resolveReference_along h path ref)
  | .nameReference name => Action.along_leaving (resolveName_along h path name)
  | .dependency d => Action.along_leaving (resolveDependency_along h d)
  | .holder name _ _ b => Action.along_leaving (resolveInner_along h path name b)
  | .nested _ b => Action.along_leaving (resolveInner_along h path _ b)
  | .array typeName remembered es => by
      rw [resolve]
      refine along_bind (elementType_along h path typeName remembered) fun elementType => ?_
      cases elementType with
      | error stop => exact along_pure _
      | ok ty => exact along_bind (resolveElements_along h path ty 0 es) fun _ => along_pure _
  | .list es => by
      rw [resolve_list]
      exact along_bind (resolveElements_along h path .any 0 es) fun _ => along_pure _
  | .set es => by
      rw [resolve_set]
      exact along_bind (resolveElements_along h path .any 0 es) fun _ => along_pure _
  | .map es => along_bind (resolveEntries_along h path es) fun _ => along_pure _
  | .properties es => along_bind (resolveProperties_along h path es) fun _ => along_pure _

theorem resolveElements_along (h : r.GoesAlong R) (path : ArgPath) (ty : Ty) (i : Nat) :
    ∀ es : List Raw, Along R (r.resolveElements path ty i es)
  | [] => along_pure _
  | e :: es => by
      rw [resolveElements]
      refine along_bind (resolve_along h (path.index i) e) fun first => ?_
      cases first.outcome with
      | error stop => exact along_pure _
      | ok v =>
          refine along_bind (convertElement_along h (path.index i) ty v) fun converted => ?_
          cases converted with
          | error stop => exact along_pure _
          | ok v =>
              exact along_bind (resolveElements_along h path ty (i + 1) es) fun _ => along_pure _

theorem resolveEntries_along (h : r.GoesAlong R) (path : ArgPath) :
    ∀ es : List (Raw × Raw), Along R (r.resolveEntries path es)
  | [] => along_pure _
  | (k, v) :: es => by
      rw [resolveEntries]
      refine along_bind (resolve_along h path k) fun key => ?_
      cases key.outcome with
      | error stop => exact along_pure _
      | ok kv =>
          refine along_bind (resolve_along h (path.key kv) v) fun value => ?_
          cases value.outcome with
          | error stop => exact along_pure _
          | ok vv => exact along_bind (resolveEntries_along h path es) fun _ => along_pure _

end

end Wiring.Resolver
