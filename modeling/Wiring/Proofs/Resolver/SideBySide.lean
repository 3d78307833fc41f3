import Wiring.Proofs.Action.SideBySide
import Wiring.Proofs.Resolver.Attribution

/-!
# Resolver — side by side

`c.Mirrors R d` says that the collaborators `d` answer what the collaborators `c` answer, in states
that `R` relates.  A resolver is run side by side with the same resolver on other collaborators
(`Resolver.on`), for the same raw value at another path.  `Resolver.RunsBeside R E r d a b` says so,
and that `E` relates the errors of the resolver's own that stand in the same place below the two
paths, and what is passed on to itself.

**Side by side the nodes are left the same, the states are related again, and the outcomes agree but
for errors that `E` relates** (`resolve_sideBySide`).  At one path the outcomes are the same
(`resolve_mirrors`).
-/

namespace Wiring

/-- The error with another argument path, if it tells one. -/
def Error.withArg (arg : String) : Error → Error
  | invalidReference site name => invalidReference { site with arg } name
  | noParent site target => noParent { site with arg } target
  | reference site name source => reference { site with arg } name source
  | elementType site source => elementType { site with arg } source
  | innerBean site name className source => innerBean { site with arg } name className source
  | nullProperty site => nullProperty { site with arg }
  | typedValue site source => typedValue { site with arg } source
  | e => e

/-- An error that tells the path is the same with it. -/
theorem Error.withArg_of_site? {e : Error} {site : Site} (h : e.site? = some site) :
    e.withArg site.arg = e := by
  cases e <;> cases h <;> rfl

/-- The paths stand in the same place, the first below `a` and the second below `b`. -/
def ArgPath.Parallel (a b path path' : ArgPath) : Prop :=
  ∃ rest, path.text = a.text ++ rest ∧ path'.text = b.text ++ rest

namespace ArgPath.Parallel

variable {a b path path' : ArgPath}

theorem refl (a b : ArgPath) : Parallel a b a b :=
  ⟨"", String.append_empty.symm, String.append_empty.symm⟩

theorem index (h : Parallel a b path path') (i : Nat) :
    Parallel a b (path.index i) (path'.index i) := by
  obtain ⟨rest, h, h'⟩ := h
  refine ⟨rest ++ ("[" ++ (toString i ++ "]")), ?_, ?_⟩
  · simp only [ArgPath.text, h, String.append_assoc]
  · simp only [ArgPath.text, h', String.append_assoc]

theorem key (h : Parallel a b path path') (k : Value) :
    Parallel a b (path.key k) (path'.key k) := by
  obtain ⟨rest, h, h'⟩ := h
  refine ⟨rest ++ ("[" ++ (k.text ++ "]")), ?_, ?_⟩
  · simp only [ArgPath.text, h, String.append_assoc]
  · simp only [ArgPath.text, h', String.append_assoc]

end ArgPath.Parallel

variable {σ τ : Type}

/-- The second look-ups answer what the first ones do. -/
structure Lookup.Mirrors (R : σ → τ → Prop) (l : Lookup σ) (m : Lookup τ) : Prop where
  containsBean (name : String) : Wiring.Mirrors R (l.containsBean name) (m.containsBean name)
  getByName (name : String) : Wiring.Mirrors R (l.getByName name).run (m.getByName name).run
  getByType (ty : Ty) : Wiring.Mirrors R (l.getByType ty).run (m.getByType ty).run

/-- The second collaborators answer what the first ones do. -/
structure Collaborators.Mirrors (R : σ → τ → Prop) (c : Collaborators σ) (d : Collaborators τ) :
    Prop extends Lookup.Mirrors R c.toLookup d.toLookup where
  parent {s : σ} {t : τ} (h : R s t) :
    SideBySide R (fun up up' _ => Option.Rel (Lookup.Mirrors R) up up') c.parent d.parent s t
  resolveNamedByType (ty : Ty) :
    Wiring.Mirrors R (c.resolveNamedByType ty).run (d.resolveNamedByType ty).run
  resolveDependency (point : Dependency) (bean : String) :
    Wiring.Mirrors R (c.resolveDependency point bean).run (d.resolveDependency point bean).run
  registerDependent (a b : String) :
    Wiring.Mirrors R (c.registerDependent a b) (d.registerDependent a b)
  registerContained (a b : String) :
    Wiring.Mirrors R (c.registerContained a b) (d.registerContained a b)
  isNameInUse (name : String) : Wiring.Mirrors R (c.isNameInUse name) (d.isNameInUse name)
  namesInUse {s : σ} {t : τ} (h : R s t) : c.namesInUse s = d.namesInUse t
  mergeBlueprint (name : String) (nested owner : Blueprint) :
    Wiring.Mirrors R (c.mergeBlueprint name nested owner).run
      (d.mergeBlueprint name nested owner).run
  createObject (name : String) (b : Blueprint) :
    Wiring.Mirrors R (c.createObject name b).run (d.createObject name b).run
  unwrapProduct (factory : Value) (name : String) (postProcess : Bool) :
    Wiring.Mirrors R (c.unwrapProduct factory name postProcess).run
      (d.unwrapProduct factory name postProcess).run
  loadType (name : String) : Wiring.Mirrors R (c.loadType name).run (d.loadType name).run
  evaluate (text : String) (b : Blueprint) :
    Wiring.Mirrors R (c.evaluate text b).run (d.evaluate text b).run
  coerce (v : Value) (ty : Ty) : Wiring.Mirrors R (c.coerce v ty).run (d.coerce v ty).run

namespace Resolver

/-- The resolver of the same bean on other collaborators. -/
def on (r : Resolver σ) (d : Collaborators τ) : Resolver τ :=
  ⟨d, r.bean, r.blueprint, r.naming⟩

/-- The resolver of the same bean works on the collaborators `d` as this one does on its own, and
`E` relates what the two may raise, this one at the path `a` and that one at the path `b`. -/
structure RunsBeside (R : σ → τ → Prop) (E : Error → Error → σ → Prop) (r : Resolver σ)
    (d : Collaborators τ) (a b : ArgPath) : Prop where
  mirrors : r.collaborators.Mirrors R d
  /-- The errors of their own tell the same place below the paths. -/
  here {path path' : ArgPath} (hp : ArgPath.Parallel a b path path') {e : Error}
    (he : e.site? = some (r.site path)) (s : σ) : E e (e.withArg path'.text) s
  /-- What the evaluation of a text raises is passed on. -/
  evaluate {text : String} {s s' : σ} {e : Error}
    (h : (r.evaluateText text).run s = (.error (.error e), s')) : E e e s'
  /-- What the container raises for an injection point is passed on. -/
  inject {point : Dependency} {s s' : σ} {e : Error}
    (h : (r.collaborators.resolveDependency point r.bean).run s = (.error (.error e), s')) :
    E e e s'

variable {R : σ → τ → Prop} {E : Error → Error → σ → Prop} {r : Resolver σ} {d : Collaborators τ}
  {a b path path' : ArgPath} {s : σ} {t : τ}

/-! ### Texts and literals -/

theorem evaluateText_sideBySide (h : r.RunsBeside R E d a b) (text : String) (hR : R s t) :
    SideBySide R (Agree E) (r.evaluateText text).run ((r.on d).evaluateText text).run s t :=
  Action.sideBySide_of_same (h.mirrors.evaluate text r.blueprint s t hR) fun _ he =>
    h.evaluate (Prod.ext he rfl)

theorem evaluateName_sideBySide (h : r.RunsBeside R E d a b) (name : String) (hR : R s t) :
    SideBySide R (Agree E) (r.evaluateName name).run ((r.on d).evaluateName name).run s t :=
  Action.sideBySide_bind (evaluateText_sideBySide h name hR) fun v _ _ hR =>
    Action.sideBySide_pure v.text hR

theorem evaluateName_mirrors (h : r.collaborators.Mirrors R d) (name : String) :
    Mirrors R (r.evaluateName name).run ((r.on d).evaluateName name).run :=
  Action.mirrors_bind (h.evaluate name r.blueprint) fun v => Action.mirrors_pure v.text

theorem evaluateLiteral_sideBySide (h : r.RunsBeside R E d a b) (l : Literal) (hR : R s t) :
    SideBySide R (Agrees E) (r.evaluateLiteral l) ((r.on d).evaluateLiteral l) s t := by
  unfold evaluateLiteral
  cases l.text with
  | none => exact .pure hR ⟨rfl, .ok _ _⟩
  | some text =>
      exact (evaluateText_sideBySide h text hR).bind_run l (fun _ => rfl) (fun _ => rfl)
        fun v _ _ hR => .pure hR ⟨rfl, .ok _ _⟩

theorem targetType_mirrors (h : r.collaborators.Mirrors R d) (l : Literal) :
    Mirrors R (r.targetType l).run ((r.on d).targetType l).run := by
  unfold targetType
  split
  · exact Action.mirrors_pure _
  · exact Action.mirrors_bind (h.loadType _) fun ty => Action.mirrors_pure _
  · exact Action.mirrors_pure _

theorem resolveLiteral_sideBySide (h : r.RunsBeside R E d a b)
    (hp : ArgPath.Parallel a b path path') (l : Literal) (hR : R s t) :
    SideBySide R (Agrees E) (r.resolveLiteral path l) ((r.on d).resolveLiteral path' l) s t := by
  have here : ∀ e s, E (r.typedValueError path e) ((r.on d).typedValueError path' e) s :=
    fun e s => h.here hp rfl s
  unfold resolveLiteral
  refine (evaluateLiteral_sideBySide h l hR).bind_resolved id (fun _ _ => rfl) (fun _ _ => rfl)
    fun node v s t hR => ?_
  refine (Action.sideBySide_mapError (targetType_mirrors h.mirrors l s t hR) here).bind_run
    node (fun _ => rfl) (fun _ => rfl) fun target s t hR => ?_
  cases target with
  | none => exact .pure hR ⟨rfl, .ok _ _⟩
  | some ty =>
      exact Action.sideBySide_leaving _
        (Action.sideBySide_mapError (h.mirrors.coerce v ty s t hR) here)

theorem resolveProperties_sideBySide (h : r.RunsBeside R E d a b)
    (hp : ArgPath.Parallel a b path path') : ∀ (es : List (Literal × Literal)) {s : σ} {t : τ},
      R s t → SideBySide R (Agrees E) (r.resolveProperties path es)
        ((r.on d).resolveProperties path' es) s t
  | [], _, _, hR => .pure hR ⟨rfl, .ok _ _⟩
  | (k, v) :: es, s, t, hR => by
      rw [resolveProperties, resolveProperties]
      refine (evaluateLiteral_sideBySide h k hR).bind_resolved (fun key => (key, v) :: es)
        (fun _ _ => rfl) (fun _ _ => rfl) fun key kv s t hR => ?_
      refine (evaluateLiteral_sideBySide h v hR).bind_resolved (fun value => (key, value) :: es)
        (fun _ _ => rfl) (fun _ _ => rfl) fun value vv s t hR => ?_
      dsimp only
      split
      · exact .pure hR ⟨rfl, .error (h.here (e := .nullProperty (r.site path)) hp rfl s)⟩
      · exact (resolveProperties_sideBySide h hp es hR).map ((key, value) :: ·) ((kv, vv) :: ·)

theorem resolveValue_sideBySide (h : r.RunsBeside R E d a b) (v : Value) (hR : R s t) :
    SideBySide R (Agree E) (r.resolveValue v).run ((r.on d).resolveValue v).run s t := by
  unfold resolveValue
  split
  · exact evaluateText_sideBySide h _ hR
  · refine Action.sideBySide_bind (Action.sideBySide_mapM
      (fun text _ _ hR => evaluateText_sideBySide h text hR) _ hR) fun values _ _ hR => ?_
    exact Action.sideBySide_pure _ hR
  · exact Action.sideBySide_pure _ hR

/-! ### References -/

theorem lookUpInParent_mirrors (h : r.collaborators.Mirrors R d) {up : Lookup σ} {up' : Lookup τ}
    (hup : up.Mirrors R up') (ref : Reference) :
    Mirrors R (r.lookUpInParent up ref).run ((r.on d).lookUpInParent up' ref).run := by
  unfold lookUpInParent
  split
  · exact hup.getByType _
  · exact Action.mirrors_bind (evaluateName_mirrors h _) hup.getByName

theorem findHere_mirrors (h : r.collaborators.Mirrors R d) (ref : Reference) :
    Mirrors R (r.findHere ref).run ((r.on d).findHere ref).run := by
  unfold findHere
  split
  · exact h.resolveNamedByType _
  · refine Action.mirrors_bind (evaluateName_mirrors h _) fun name => ?_
    exact Action.mirrors_bind (h.getByName name) fun bean => Action.mirrors_pure _

theorem lookUpHere_mirrors (h : r.collaborators.Mirrors R d) (ref : Reference) :
    Mirrors R (r.lookUpHere ref).run ((r.on d).lookUpHere ref).run := by
  refine Action.mirrors_bind (findHere_mirrors h ref) fun found => ?_
  exact Action.mirrors_bind (Action.mirrors_lift (h.registerDependent found.name r.bean))
    fun _ => Action.mirrors_pure _

theorem followReference_sideBySide (h : r.RunsBeside R E d a b)
    (hp : ArgPath.Parallel a b path path') (ref : Reference) (hR : R s t) :
    SideBySide R (Agree E) (r.followReference path ref).run ((r.on d).followReference path' ref).run
      s t := by
  have here : ∀ e s, E (r.referenceError path ref e) ((r.on d).referenceError path' ref e) s :=
    fun e s => h.here hp rfl s
  unfold followReference
  split
  · refine Action.sideBySide_bind_lift (h.mirrors.parent hR) fun {up up' s t} hR hup => ?_
    cases hup with
    | none => exact Action.sideBySide_fail hR (h.here hp rfl s)
    | some hup =>
        exact Action.sideBySide_mapError (lookUpInParent_mirrors h.mirrors hup ref s t hR) here
  · exact Action.sideBySide_mapError (lookUpHere_mirrors h.mirrors ref s t hR) here

theorem resolveReference_sideBySide (h : r.RunsBeside R E d a b)
    (hp : ArgPath.Parallel a b path path') (ref : Reference) (hR : R s t) :
    SideBySide R (Agree E) (r.resolveReference path ref).run
      ((r.on d).resolveReference path' ref).run s t :=
  Action.sideBySide_bind (followReference_sideBySide h hp ref hR) fun _ _ _ hR =>
    Action.sideBySide_pure _ hR

theorem resolveName_sideBySide (h : r.RunsBeside R E d a b)
    (hp : ArgPath.Parallel a b path path') (name : String) (hR : R s t) :
    SideBySide R (Agree E) (r.resolveName path name).run ((r.on d).resolveName path' name).run
      s t := by
  refine Action.sideBySide_bind (evaluateName_sideBySide h name hR) fun name s t hR => ?_
  refine Action.sideBySide_bind_lift (h.mirrors.containsBean name s t hR)
    fun {known known' s t} hR same => ?_
  obtain rfl : known = known' := same
  cases known with
  | true => exact Action.sideBySide_pure _ hR
  | false => exact Action.sideBySide_fail hR (h.here hp rfl s)

theorem registerCandidates_mirrors (h : r.collaborators.Mirrors R d) :
    ∀ names : List String,
      Mirrors R (r.registerCandidates names) ((r.on d).registerCandidates names)
  | [] => Mirrors.pure _
  | name :: names => by
      rw [registerCandidates, registerCandidates]
      refine Mirrors.bind (h.containsBean name) fun known => ?_
      cases known with
      | false => exact registerCandidates_mirrors h names
      | true =>
          exact Mirrors.bind (h.registerDependent name r.bean) fun _ =>
            registerCandidates_mirrors h names

theorem resolveDependency_sideBySide (h : r.RunsBeside R E d a b) (point : Dependency)
    (hR : R s t) :
    SideBySide R (Agree E) (r.resolveDependency point).run ((r.on d).resolveDependency point).run
      s t := by
  refine Action.sideBySide_bind (Action.sideBySide_of_same
    (h.mirrors.resolveDependency point r.bean s t hR) fun e he => h.inject (Prod.ext he rfl))
    fun selection s t hR => ?_
  exact Action.sideBySide_bind_lift (registerCandidates_mirrors h.mirrors _ s t hR)
    fun hR _ => Action.sideBySide_pure _ hR

/-! ### Inner beans -/

theorem searchName_mirrors (h : r.collaborators.Mirrors R d) (base : String) :
    ∀ (tries counter : Nat) (candidate : String),
      Mirrors R (r.searchName base tries counter candidate).run
        ((r.on d).searchName base tries counter candidate).run
  | 0, _, _ => Action.mirrors_throw .exhausted
  | tries + 1, counter, candidate => by
      rw [searchName, searchName]
      refine Action.mirrors_bind (Action.mirrors_lift (h.isNameInUse candidate)) fun busy => ?_
      cases busy with
      | true => exact searchName_mirrors h base tries (counter + 1) _
      | false => exact Action.mirrors_pure _

theorem innerName_mirrors (h : r.collaborators.Mirrors R d) (proposed : String)
    (merged : Blueprint) :
    Mirrors R (r.innerName proposed merged).run ((r.on d).innerName proposed merged).run := by
  unfold innerName
  split
  · intro s t hR
    -- the same number of names is tried
    have tries := h.namesInUse hR
    have search :=
      searchName_mirrors h proposed (r.collaborators.namesInUse s + 1) 0 proposed s t hR
    refine ⟨?_, ?_⟩
    · rw [freshName, freshName, Action.run_get_bind, Action.run_get_bind]
      rw [show (r.on d).collaborators.namesInUse t = r.collaborators.namesInUse s from tries.symm]
      exact search.result
    · rw [freshName, freshName, Action.run_get_bind, Action.run_get_bind]
      rw [show (r.on d).collaborators.namesInUse t = r.collaborators.namesInUse s from tries.symm]
      exact search.state
  · exact Action.mirrors_pure _

theorem prepare_mirrors (h : r.collaborators.Mirrors R d) (inner : String) :
    ∀ names : List String, Mirrors R (r.prepare inner names).run ((r.on d).prepare inner names).run
  | [] => Action.mirrors_pure _
  | name :: names => by
      rw [prepare, prepare]
      refine Action.mirrors_bind (Action.mirrors_lift (h.registerDependent name inner)) fun _ => ?_
      exact Action.mirrors_bind (h.getByName name) fun _ => prepare_mirrors h inner names

theorem makeInner_mirrors (h : r.collaborators.Mirrors R d) (inner : String) (merged : Blueprint) :
    Mirrors R (r.makeInner inner merged).run ((r.on d).makeInner inner merged).run := by
  refine Action.mirrors_bind (prepare_mirrors h inner merged.dependsOn) fun _ => ?_
  refine Action.mirrors_bind (h.createObject inner merged) fun made => ?_
  cases made with
  | factory factory =>
      exact Action.mirrors_bind (h.unwrapProduct factory inner _) fun _ => Action.mirrors_pure _
  | value v => exact Action.mirrors_pure _
  | null => exact Action.mirrors_pure _

theorem createInner_mirrors (h : r.collaborators.Mirrors R d) (inner : String)
    (merged : Blueprint) :
    Mirrors R (r.createInner inner merged).run ((r.on d).createInner inner merged).run :=
  Action.mirrors_bind (Action.mirrors_lift (h.registerContained inner r.bean)) fun _ =>
    makeInner_mirrors h inner merged

theorem resolveInner_sideBySide (h : r.RunsBeside R E d a b)
    (hp : ArgPath.Parallel a b path path') (proposed : String) (nested : Blueprint) (hR : R s t) :
    SideBySide R (Agree E) (r.resolveInner path proposed nested).run
      ((r.on d).resolveInner path' proposed nested).run s t := by
  have here : ∀ inner className e s, E (r.innerError path inner className e)
      ((r.on d).innerError path' inner className e) s := fun _ _ _ s => h.here hp rfl s
  refine Action.sideBySide_bind (Action.sideBySide_mapError
    (h.mirrors.mergeBlueprint proposed nested r.blueprint s t hR) (here _ _))
    fun merged s t hR => ?_
  have named := innerName_mirrors h.mirrors proposed merged s t hR
  refine Action.sideBySide_bind (Action.sideBySide_of_same named fun e he => ?_)
    fun inner s t hR => ?_
  · -- the search for a name raises nothing
    have never := innerName_raises (r := r) (P := fun _ _ => False) proposed merged s
    rw [he] at never
    exact never.elim
  · exact Action.sideBySide_mapError (createInner_mirrors h.mirrors inner merged s t hR) (here _ _)

/-! ### Raw trees -/

theorem elementType_sideBySide (h : r.RunsBeside R E d a b)
    (hp : ArgPath.Parallel a b path path') (typeName : Option String) (remembered : Option Ty)
    (hR : R s t) :
    SideBySide R (Agree E) (r.elementType path typeName remembered).run
      ((r.on d).elementType path' typeName remembered).run s t := by
  unfold elementType
  split
  · exact Action.sideBySide_pure _ hR
  · exact Action.sideBySide_mapError (h.mirrors.loadType _ s t hR) fun e s => h.here hp rfl s
  · exact Action.sideBySide_pure _ hR

theorem convertElement_sideBySide (h : r.RunsBeside R E d a b)
    (hp : ArgPath.Parallel a b path path') (ty : Ty) (v : Value) (hR : R s t) :
    SideBySide R (Agree E) (r.convertElement path ty v).run ((r.on d).convertElement path' ty v).run
      s t := by
  unfold convertElement
  split
  · exact Action.sideBySide_pure _ hR
  · exact Action.sideBySide_mapError (h.mirrors.coerce v ty s t hR) fun e s => h.here hp rfl s

mutual

/-- **Side by side the nodes are left the same, the states are related again, and the outcomes
agree.** -/
theorem resolve_sideBySide (h : r.RunsBeside R E d a b) {path path' : ArgPath}
    (hp : ArgPath.Parallel a b path path') : ∀ (raw : Raw) {s : σ} {t : τ}, R s t →
      SideBySide R (Agrees E) (r.resolve path raw) ((r.on d).resolve path' raw) s t
  | .null, _, _, hR => .pure hR ⟨rfl, .ok _ _⟩
  | .literal l, _, _, hR =>
      (resolveLiteral_sideBySide h hp l hR).bind fun hR agree =>
        .pure hR ⟨congrArg Raw.literal agree.node, agree.outcome⟩
  | .value v, _, _, hR => Action.sideBySide_leaving _ (resolveValue_sideBySide h v hR)
  | .reference ref, _, _, hR =>
      Action.sideBySide_leaving _ (resolveReference_sideBySide h hp ref hR)
  | .nameReference name, _, _, hR =>
      Action.sideBySide_leaving _ (resolveName_sideBySide h hp name hR)
  | .dependency point, _, _, hR =>
      Action.sideBySide_leaving _ (resolveDependency_sideBySide h point hR)
  | .holder name _ _ b, _, _, hR =>
      Action.sideBySide_leaving _ (resolveInner_sideBySide h hp name b hR)
  | .nested _ b, _, _, hR => Action.sideBySide_leaving _ (resolveInner_sideBySide h hp _ b hR)
  | .array typeName remembered es, _, _, hR => by
      rw [resolve, resolve]
      refine (elementType_sideBySide h hp typeName remembered hR).bind_run
        (.array typeName remembered es) (fun _ => rfl) (fun _ => rfl) fun ty _ _ hR => ?_
      exact (resolveElements_sideBySide h hp ty 0 es hR).map
        (Raw.array typeName (some ty)) (Value.array ty)
  | .list es, _, _, hR => by
      rw [resolve_list, resolve_list]
      exact (resolveElements_sideBySide h hp .any 0 es hR).map Raw.list Value.list
  | .set es, _, _, hR => by
      rw [resolve_set, resolve_set]
      exact (resolveElements_sideBySide h hp .any 0 es hR).map Raw.set Value.setOf
  | .map es, _, _, hR => (resolveEntries_sideBySide h hp es hR).map Raw.map Value.mapOf
  | .properties es, _, _, hR =>
      (resolveProperties_sideBySide h hp es hR).map Raw.properties Value.propertiesOf

theorem resolveElements_sideBySide (h : r.RunsBeside R E d a b) {path path' : ArgPath}
    (hp : ArgPath.Parallel a b path path') (ty : Ty) (i : Nat) : ∀ (es : List Raw) {s : σ} {t : τ},
      R s t → SideBySide R (Agrees E) (r.resolveElements path ty i es)
        ((r.on d).resolveElements path' ty i es) s t
  | [], _, _, hR => .pure hR ⟨rfl, .ok _ _⟩
  | e :: es, _, _, hR => by
      rw [resolveElements, resolveElements]
      refine (resolve_sideBySide h (hp.index i) e hR).bind_resolved (· :: es) (fun _ _ => rfl)
        (fun _ _ => rfl) fun node v _ _ hR => ?_
      refine (convertElement_sideBySide h (hp.index i) ty v hR).bind_run (node :: es)
        (fun _ => rfl) (fun _ => rfl) fun v _ _ hR => ?_
      exact (resolveElements_sideBySide h hp ty (i + 1) es hR).map (node :: ·) (v :: ·)

theorem resolveEntries_sideBySide (h : r.RunsBeside R E d a b) {path path' : ArgPath}
    (hp : ArgPath.Parallel a b path path') : ∀ (es : List (Raw × Raw)) {s : σ} {t : τ},
      R s t → SideBySide R (Agrees E) (r.resolveEntries path es) ((r.on d).resolveEntries path' es)
        s t
  | [], _, _, hR => .pure hR ⟨rfl, .ok _ _⟩
  | (k, v) :: es, _, _, hR => by
      rw [resolveEntries, resolveEntries]
      refine (resolve_sideBySide h hp k hR).bind_resolved (fun key => (key, v) :: es)
        (fun _ _ => rfl) (fun _ _ => rfl) fun key kv _ _ hR => ?_
      refine (resolve_sideBySide h (hp.key kv) v hR).bind_resolved (fun value => (key, value) :: es)
        (fun _ _ => rfl) (fun _ _ => rfl) fun value vv _ _ hR => ?_
      exact (resolveEntries_sideBySide h hp es hR).map ((key, value) :: ·) ((kv, vv) :: ·)

end

/-- At one path, on collaborators that answer the same, the same errors are raised. -/
theorem RunsBeside.of_mirrors (h : r.collaborators.Mirrors R d) (path : ArgPath) :
    r.RunsBeside R (fun e f _ => e = f) d path path where
  mirrors := h
  here := fun ⟨rest, hrest, hrest'⟩ _ he s => by
    rw [show _ = _ from hrest'.trans hrest.symm]
    exact (Error.withArg_of_site? he).symm
  evaluate _ := rfl
  inject _ := rfl

theorem resolveInner_mirrors (h : r.collaborators.Mirrors R d) (path : ArgPath) (proposed : String)
    (nested : Blueprint) :
    Mirrors R (r.resolveInner path proposed nested).run
      ((r.on d).resolveInner path proposed nested).run := by
  intro s t hR
  have run := resolveInner_sideBySide (.of_mirrors h path) (.refl path path) proposed nested hR
  exact ⟨run.result.eq, run.state⟩

/-- **At one path a resolver on other collaborators that answer the same has the same outcome.** -/
theorem resolve_mirrors (h : r.collaborators.Mirrors R d) (path : ArgPath) (raw : Raw) :
    Mirrors R (r.resolve path raw) ((r.on d).resolve path raw) := by
  intro s t hR
  have run := resolve_sideBySide (.of_mirrors h path) (.refl path path) raw hR
  exact ⟨run.result.eq, run.state⟩

end Resolver

end Wiring
