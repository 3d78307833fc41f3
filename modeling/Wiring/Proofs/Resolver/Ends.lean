import Wiring.Proofs.Action.Ends
import Wiring.Proofs.Resolver.Leaves
import Wiring.Proofs.Resolver.SideBySide

/-!
# Resolver — coming to the same end

A resolver on two kinds of collaborators, which may differ in the beans they look up and the objects
they make, and otherwise come to the same end (`Resolver.EndsBeside`).

**Where each leaf comes to the same end, the tree does** (`resolve_endsAlike`).  A literal, a value,
a properties table and the name of a bean do so at once; a reference does when the look-up it leads
to does (`resolveReference_endsAlike`); an injection point does when the choice made for it does
(`resolveDependency_endsAlike`); a nested blueprint does when the look-ups of the beans it
depends on and the making of its object do (`resolveInner_endsAlike`).
-/

namespace Wiring

variable {σ : Type} {I : σ → Prop}

namespace Resolver

/-- Look-ups and objects aside, the resolver comes to the same end on the collaborators `d` as on
its own. -/
structure EndsBeside (I : σ → Prop) (r : Resolver σ) (d : Collaborators σ) : Prop where
  evaluate (text : String) :
    EndsAlike I Ended (r.evaluateText text).run ((r.on d).evaluateText text).run
  loadType (name : String) :
    EndsAlike I Ended (r.collaborators.loadType name).run (d.loadType name).run
  coerce (v : Value) (ty : Ty) :
    EndsAlike I Ended (r.collaborators.coerce v ty).run (d.coerce v ty).run
  containsBean (name : String) :
    EndsAlike I (fun _ => True) (r.collaborators.containsBean name) (d.containsBean name)
  registerDependent (a b : String) :
    EndsAlike I (fun _ => True) (r.collaborators.registerDependent a b) (d.registerDependent a b)
  registerContained (a b : String) :
    EndsAlike I (fun _ => True) (r.collaborators.registerContained a b) (d.registerContained a b)
  mergeBlueprint (proposed : String) (nested : Blueprint) :
    EndsAlike I Ended (r.collaborators.mergeBlueprint proposed nested r.blueprint).run
      (d.mergeBlueprint proposed nested r.blueprint).run
  freshName (proposed : String) :
    EndsAlike I Ended (r.freshName proposed).run ((r.on d).freshName proposed).run
  unwrapProduct (factory : Value) (name : String) (postProcess : Bool) :
    EndsAlike I Ended (r.collaborators.unwrapProduct factory name postProcess).run
      (d.unwrapProduct factory name postProcess).run

variable {r : Resolver σ} {d : Collaborators σ}

/-! ### Texts and literals -/

theorem evaluateName_endsAlike (h : r.EndsBeside I d) (name : String) :
    EndsAlike I Ended (r.evaluateName name).run ((r.on d).evaluateName name).run :=
  Action.endsAlike_bind (h.evaluate name) fun _ v _ _ => Action.endsAlike_pure v.text

theorem evaluateLiteral_endsAlike (h : r.EndsBeside I d) (l : Literal) :
    EndsAlike I Resolved.Ended (r.evaluateLiteral l) ((r.on d).evaluateLiteral l) := by
  unfold evaluateLiteral
  cases l.text with
  | none => exact .pure (ended_ok _)
  | some text =>
      exact (h.evaluate text).bind_run l (fun _ => rfl) (fun _ => rfl) fun v => .pure (ended_ok v)

theorem targetType_endsAlike (h : r.EndsBeside I d) (l : Literal) :
    EndsAlike I Ended (r.targetType l).run ((r.on d).targetType l).run := by
  unfold targetType
  split
  · exact Action.endsAlike_pure _
  · exact Action.endsAlike_bind (h.loadType _) fun _ ty _ _ => Action.endsAlike_pure (some ty)
  · exact Action.endsAlike_pure _

theorem resolveLiteral_endsAlike (h : r.EndsBeside I d) (path : ArgPath) (l : Literal) :
    EndsAlike I Resolved.Ended (r.resolveLiteral path l) ((r.on d).resolveLiteral path l) := by
  unfold resolveLiteral
  refine (evaluateLiteral_endsAlike h l).bind_resolved id (fun _ _ => rfl) (fun _ _ => rfl)
    fun node v => ?_
  refine (Action.endsAlike_mapError _ (targetType_endsAlike h l)).bind_run node (fun _ => rfl)
    (fun _ => rfl) fun target => ?_
  cases target with
  | none => exact .pure (ended_ok v)
  | some ty => exact Action.endsAlike_leaving _ (Action.endsAlike_mapError _ (h.coerce v ty))

theorem resolveProperties_endsAlike (h : r.EndsBeside I d) (path : ArgPath) :
    ∀ es : List (Literal × Literal), EndsAlike I Resolved.Ended (r.resolveProperties path es)
      ((r.on d).resolveProperties path es)
  | [] => .pure (ended_ok _)
  | (k, v) :: es => by
      rw [resolveProperties, resolveProperties]
      refine (evaluateLiteral_endsAlike h k).bind_resolved (fun key => (key, v) :: es)
        (fun _ _ => rfl) (fun _ _ => rfl) fun key kv => ?_
      refine (evaluateLiteral_endsAlike h v).bind_resolved (fun value => (key, value) :: es)
        (fun _ _ => rfl) (fun _ _ => rfl) fun value vv => ?_
      dsimp only
      split
      · exact .pure (ended_error _)
      · exact (resolveProperties_endsAlike h path es).map ((key, value) :: ·) ((kv, vv) :: ·)

theorem resolveValue_endsAlike (h : r.EndsBeside I d) (v : Value) :
    EndsAlike I Ended (r.resolveValue v).run ((r.on d).resolveValue v).run := by
  unfold resolveValue
  split
  · exact h.evaluate _
  · exact Action.endsAlike_bind (Action.endsAlike_mapM h.evaluate _) fun _ values _ _ =>
      Action.endsAlike_pure _
  · exact Action.endsAlike_pure _

/-! ### References and nested blueprints -/

theorem resolveName_endsAlike (h : r.EndsBeside I d) (path : ArgPath) (name : String) :
    EndsAlike I Ended (r.resolveName path name).run ((r.on d).resolveName path name).run := by
  refine Action.endsAlike_bind (evaluateName_endsAlike h name) fun _ name _ _ => ?_
  refine Action.endsAlike_bind_lift (h.containsBean name) fun s _ => ?_
  split
  · exact Action.endsAlike_pure _
  · exact Action.endsAlike_fail _

/-- A reference to a bean in this container ends with its look-up. -/
theorem resolveReference_endsAlike (h : r.EndsBeside I d) (path : ArgPath) {ref : Reference}
    (here : ref.inParent = false)
    (found : EndsAlike I Ended (r.findHere ref).run ((r.on d).findHere ref).run) :
    EndsAlike I Ended (r.resolveReference path ref).run
      ((r.on d).resolveReference path ref).run := by
  refine Action.endsAlike_bind ?_ fun _ bean _ _ => Action.endsAlike_pure bean.toValue
  rw [followReference, followReference, here]
  refine Action.endsAlike_mapError _ (Action.endsAlike_bind found fun _ found _ _ => ?_)
  exact Action.endsAlike_bind_lift (h.registerDependent found.name r.bean) fun _ _ =>
    Action.endsAlike_pure found.bean

theorem prepare_endsAlike (h : r.EndsBeside I d) (inner : String) : ∀ names : List String,
    (∀ name ∈ names, EndsAlike I Ended (r.collaborators.getByName name).run
      (d.getByName name).run) →
      EndsAlike I Ended (r.prepare inner names).run ((r.on d).prepare inner names).run
  | [], _ => Action.endsAlike_pure _
  | name :: names, found => by
      obtain ⟨hname, hnames⟩ := List.forall_mem_cons.1 found
      refine Action.endsAlike_bind_lift (h.registerDependent name inner) fun _ _ => ?_
      exact Action.endsAlike_bind hname fun _ _ _ _ => prepare_endsAlike h inner names hnames

theorem makeInner_endsAlike (h : r.EndsBeside I d) (inner : String) (merged : Blueprint)
    (found : ∀ name ∈ merged.dependsOn,
      EndsAlike I Ended (r.collaborators.getByName name).run (d.getByName name).run)
    (made : EndsAlike I Ended (r.collaborators.createObject inner merged).run
      (d.createObject inner merged).run) :
    EndsAlike I Ended (r.makeInner inner merged).run ((r.on d).makeInner inner merged).run := by
  refine Action.endsAlike_bind (prepare_endsAlike h inner merged.dependsOn found) fun _ _ _ _ => ?_
  refine Action.endsAlike_bind made fun _ made _ _ => ?_
  cases made with
  | factory factory =>
      exact Action.endsAlike_bind (h.unwrapProduct factory inner _) fun _ _ _ _ =>
        Action.endsAlike_pure _
  | value v => exact Action.endsAlike_pure _
  | null => exact Action.endsAlike_pure _

theorem innerName_endsAlike (h : r.EndsBeside I d) (proposed : String) (merged : Blueprint) :
    EndsAlike I Ended (r.innerName proposed merged).run
      ((r.on d).innerName proposed merged).run := by
  unfold innerName
  split
  · exact h.freshName proposed
  · exact Action.endsAlike_pure proposed

/-- A nested blueprint ends with the look-ups of the beans it depends on and the making of its
object, each as it is once the blueprint is merged. -/
theorem resolveInner_endsAlike (h : r.EndsBeside I d) (path : ArgPath) (proposed : String)
    (nested : Blueprint)
    (made : ∀ s merged, I s →
      ((r.collaborators.mergeBlueprint proposed nested r.blueprint).run s).1 = .ok merged →
        (∀ name ∈ merged.dependsOn,
          EndsAlike I Ended (r.collaborators.getByName name).run (d.getByName name).run) ∧
        ∀ inner, EndsAlike I Ended (r.collaborators.createObject inner merged).run
          (d.createObject inner merged).run) :
    EndsAlike I Ended (r.resolveInner path proposed nested).run
      ((r.on d).resolveInner path proposed nested).run := by
  refine Action.endsAlike_bind (Action.endsAlike_mapError _ (h.mergeBlueprint proposed nested))
    fun s merged hs merges => ?_
  obtain ⟨found, created⟩ := made s merged hs
    (congrArg Prod.fst (Action.ok_of_mapError (Prod.ext merges rfl)))
  refine Action.endsAlike_bind (innerName_endsAlike h proposed merged) fun _ inner _ _ => ?_
  refine Action.endsAlike_mapError _
    (Action.endsAlike_bind_lift (h.registerContained inner r.bean) fun _ _ => ?_)
  exact makeInner_endsAlike h inner merged found (created inner)

theorem registerCandidates_endsAlike (h : r.EndsBeside I d) : ∀ names : List String,
    EndsAlike I (fun _ => True) (r.registerCandidates names) ((r.on d).registerCandidates names)
  | [] => .pure trivial
  | name :: names => by
      rw [registerCandidates, registerCandidates]
      refine (h.containsBean name).bind fun s _ _ => ?_
      have rest := registerCandidates_endsAlike h names
      split
      · exact (h.registerDependent name r.bean).bind fun _ _ _ => rest
      · exact rest

/-- An injection point ends with the choice of its value. -/
theorem resolveDependency_endsAlike (h : r.EndsBeside I d) (point : Dependency)
    (chosen : EndsAlike I Ended (r.collaborators.resolveDependency point r.bean).run
      (d.resolveDependency point r.bean).run) :
    EndsAlike I Ended (r.resolveDependency point).run ((r.on d).resolveDependency point).run := by
  refine Action.endsAlike_bind chosen fun _ selection _ _ => ?_
  exact Action.endsAlike_bind_lift (registerCandidates_endsAlike h _) fun _ _ =>
    Action.endsAlike_pure selection.value

/-! ### Raw trees -/

/-- The leaf of a tree comes to the same end, if it looks up a bean or has an object made. -/
def LeafEndsAlike (I : σ → Prop) (r : Resolver σ) (d : Collaborators σ) : Raw → Prop
  | .reference ref => ∀ path,
      EndsAlike I Ended (r.resolveReference path ref).run ((r.on d).resolveReference path ref).run
  | .dependency point =>
      EndsAlike I Ended (r.resolveDependency point).run ((r.on d).resolveDependency point).run
  | .holder name _ _ b => ∀ path,
      EndsAlike I Ended (r.resolveInner path name b).run ((r.on d).resolveInner path name b).run
  | .nested _ b => ∀ path,
      EndsAlike I Ended (r.resolveInner path (r.naming.innerName b.token) b).run
        ((r.on d).resolveInner path (r.naming.innerName b.token) b).run
  | _ => True

theorem elementType_endsAlike (h : r.EndsBeside I d) (path : ArgPath) (typeName : Option String)
    (remembered : Option Ty) :
    EndsAlike I Ended (r.elementType path typeName remembered).run
      ((r.on d).elementType path typeName remembered).run := by
  unfold elementType
  split
  · exact Action.endsAlike_pure _
  · exact Action.endsAlike_mapError _ (h.loadType _)
  · exact Action.endsAlike_pure _

theorem convertElement_endsAlike (h : r.EndsBeside I d) (path : ArgPath) (ty : Ty) (v : Value) :
    EndsAlike I Ended (r.convertElement path ty v).run
      ((r.on d).convertElement path ty v).run := by
  unfold convertElement
  split
  · exact Action.endsAlike_pure _
  · exact Action.endsAlike_mapError _ (h.coerce v ty)

mutual

/-- **Where each leaf comes to the same end, the tree does**, at every path. -/
theorem resolve_endsAlike (h : r.EndsBeside I d) : ∀ raw : Raw,
    (∀ leaf ∈ raw.leaves, LeafEndsAlike I r d leaf) → ∀ path,
      EndsAlike I Resolved.Ended (r.resolve path raw) ((r.on d).resolve path raw)
  | .null, _, _ => .pure (ended_ok _)
  | .literal l, _, path =>
      (resolveLiteral_endsAlike h path l).bind fun _ _ ended => .pure ended
  | .value v, _, _ => Action.endsAlike_leaving _ (resolveValue_endsAlike h v)
  | .nameReference name, _, path => Action.endsAlike_leaving _ (resolveName_endsAlike h path name)
  | .properties es, _, path =>
      (resolveProperties_endsAlike h path es).map Raw.properties Value.propertiesOf
  | .reference _, leaf, path | .holder _ _ _ _, leaf, path | .nested _ _, leaf, path =>
      Action.endsAlike_leaving _ (leaf _ List.mem_cons_self path)
  | .dependency _, leaf, _ => Action.endsAlike_leaving _ (leaf _ List.mem_cons_self)
  | .array typeName remembered es, leaf, path => by
      rw [resolve, resolve]
      refine (elementType_endsAlike h path typeName remembered).bind_run
        (.array typeName remembered es) (fun _ => rfl) (fun _ => rfl) fun ty => ?_
      exact (resolveElements_endsAlike h path ty 0 es leaf).map (Raw.array typeName (some ty))
        (Value.array ty)
  | .list es, leaf, path => by
      rw [resolve_list, resolve_list]
      exact (resolveElements_endsAlike h path .any 0 es leaf).map Raw.list Value.list
  | .set es, leaf, path => by
      rw [resolve_set, resolve_set]
      exact (resolveElements_endsAlike h path .any 0 es leaf).map Raw.set Value.setOf
  | .map es, leaf, path =>
      (resolveEntries_endsAlike h path es leaf).map Raw.map Value.mapOf

theorem resolveElements_endsAlike (h : r.EndsBeside I d) (path : ArgPath) (ty : Ty) :
    ∀ (i : Nat) (es : List Raw), (∀ leaf ∈ Raw.leavesAll es, LeafEndsAlike I r d leaf) →
      EndsAlike I Resolved.Ended (r.resolveElements path ty i es)
        ((r.on d).resolveElements path ty i es)
  | _, [], _ => .pure (ended_ok _)
  | i, e :: es, leaf => by
      obtain ⟨he, hes⟩ := List.forall_mem_append.1 leaf
      rw [resolveElements, resolveElements]
      refine (resolve_endsAlike h e he (path.index i)).bind_resolved (· :: es) (fun _ _ => rfl)
        (fun _ _ => rfl) fun node v => ?_
      refine (convertElement_endsAlike h (path.index i) ty v).bind_run (node :: es)
        (fun _ => rfl) (fun _ => rfl) fun v => ?_
      exact (resolveElements_endsAlike h path ty (i + 1) es hes).map (node :: ·) (v :: ·)

theorem resolveEntries_endsAlike (h : r.EndsBeside I d) (path : ArgPath) :
    ∀ es : List (Raw × Raw), (∀ leaf ∈ Raw.leavesEntries es, LeafEndsAlike I r d leaf) →
      EndsAlike I Resolved.Ended (r.resolveEntries path es) ((r.on d).resolveEntries path es)
  | [], _ => .pure (ended_ok _)
  | (k, v) :: es, leaf => by
      obtain ⟨hk, leaf⟩ := List.forall_mem_append.1 leaf
      obtain ⟨hv, hes⟩ := List.forall_mem_append.1 leaf
      rw [resolveEntries, resolveEntries]
      refine (resolve_endsAlike h k hk path).bind_resolved (fun key => (key, v) :: es)
        (fun _ _ => rfl) (fun _ _ => rfl) fun key kv => ?_
      refine (resolve_endsAlike h v hv (path.key kv)).bind_resolved
        (fun value => (key, value) :: es) (fun _ _ => rfl) (fun _ _ => rfl) fun value vv => ?_
      exact (resolveEntries_endsAlike h path es hes).map ((key, value) :: ·) ((kv, vv) :: ·)

end

end Resolver

end Wiring
