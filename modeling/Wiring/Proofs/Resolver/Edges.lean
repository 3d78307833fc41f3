import Wiring.Proofs.Action.Traces
import Wiring.Proofs.Ordered
import Wiring.Proofs.Resolver.Paths

/-!
# Resolver — the edges recorded and the types loaded by a resolution

A resolver has its container record which beans its own bean needs, and which inner beans are part
of it.  `Resolver.edges` tells the edges of one visit from what the collaborators answer at it: the
bean a reference found here, the known candidates of an injection point, and for a nested blueprint
the inner bean itself and the beans it depends on.

It has types loaded for literals and arrays that remember none (`Resolver.request?`).

**A resolution records the edges of its visits, in the order of traversal, and no others**
(`edges_of_calls`), **and has the types loaded that its visits request, and no others**
(`loads_of_calls`), whether it succeeds or fails.
-/

namespace Wiring

variable {σ : Type}

open Wiring.Action (valueOf)

namespace Resolver

/-! ### The edges of a visit -/

/-- Those of the names that are known, asked for one after the other; each is recorded as needed
before the next one is asked for. -/
def known (r : Resolver σ) : List String → σ → List String
  | [], _ => []
  | name :: names, s =>
    match r.collaborators.containsBean name s with
    | (true, s) => name :: r.known names (r.collaborators.registerDependent name r.bean s).2
    | (false, s) => r.known names s

/-- The names up to the first bean that cannot be had, that one with them; each is recorded as
needed by the inner bean before it is asked for. -/
def attempted (r : Resolver σ) (inner : String) : List String → σ → List String
  | [], _ => []
  | name :: names, s =>
    let asked := (r.collaborators.registerDependent name inner s).2
    name :: ((r.collaborators.getByName name).reach asked).elim [] fun (_, s) =>
      r.attempted inner names s

/-- The edges of a nested blueprint that has been merged: the inner bean is part of this bean, and
needs the beans it depends on. -/
def innerEdges (r : Resolver σ) (inner : String) (merged : Blueprint) (s : σ) : List Edge :=
  .contained inner r.bean ::
    (r.attempted inner merged.dependsOn (r.collaborators.registerContained inner r.bean s).2).map
      (.needed · inner)

/-- The edges that are recorded at a visit, for what the node itself asks of the collaborators. -/
def edges (r : Resolver σ) : Visit σ → List Edge
  | .value _ _ (.reference ref) s =>
    if ref.inParent then []
    else ((r.findHere ref).reach s).elim [] fun (found, _) => [.needed found.name r.bean]
  | .value _ _ (.dependency d) s =>
    ((r.collaborators.resolveDependency d r.bean).reach s).elim [] fun (selection, s) =>
      (r.known selection.candidates.eraseDups s).map (.needed · r.bean)
  | .value _ _ raw s =>
    (r.inner? raw).elim [] fun (proposed, b) =>
      ((r.collaborators.mergeBlueprint proposed b r.blueprint).reach s).elim [] fun (merged, s) =>
        ((r.innerName proposed merged).reach s).elim [] fun (inner, s) =>
          r.innerEdges inner merged s
  | _ => []

/-- The names of the types that are requested at a visit, one at most. -/
def requests (r : Resolver σ) (v : Visit σ) : List String :=
  ((r.request? v).map Prod.fst).toList

/-- The marks that are left at a visit. -/
def marks (r : Resolver σ) (v : Visit σ) : List Mark :=
  (r.edges v).map .edge ++ (r.requests v).map .load

/-- The marks of the visits at the places, in their order. -/
def marksAt (r : Resolver σ) (visit? : List Nat → Option (Visit σ)) (places : List (List Nat)) :
    List Mark :=
  places.flatMap fun place => (visit? place).elim [] r.marks

variable {r : Resolver σ} {visit? visit?' : List Nat → Option (Visit σ)}
  {places others : List (List Nat)}

theorem marksAt_append : r.marksAt visit? (places ++ others) =
    r.marksAt visit? places ++ r.marksAt visit? others :=
  List.flatMap_append

/-- The marks of visits that are told by other places. -/
theorem marksAt_map {f : List Nat → List Nat} (same : ∀ place, visit? (f place) = visit?' place) :
    r.marksAt visit? (places.map f) = r.marksAt visit?' places := by
  rw [marksAt, List.flatMap_map, marksAt]
  simp only [same]

/-- Visits that are made once there is a result leave marks only then. -/
theorem marksAt_bind {α : Type} (x : Option α) (rest : α → List Nat → Option (Visit σ)) :
    r.marksAt (fun place => x.bind fun a => rest a place) places =
      x.elim [] fun a => r.marksAt (rest a) places := by
  cases x with
  | none => exact List.flatMap_eq_nil_iff.2 fun _ _ => rfl
  | some a => rfl

/-- The marks of a collection are its own and those of what stands in it. -/
theorem marksAt_collection (path : ArgPath) (ty : Ty) (raw : Raw) (s : σ)
    (visit? : List Nat → Option (Visit σ)) (nonempty : ∀ place ∈ places, place ≠ [])
    (inside : ∀ i place, r.visit? path ty raw s (i :: place) = visit? (i :: place)) :
    r.marksAt (r.visit? path ty raw s) ([] :: places) =
      r.marks (.value path ty raw s) ++ r.marksAt visit? places := by
  have root : r.visit? path ty raw s [] = some (.value path ty raw s) := by cases raw <;> rfl
  rw [marksAt, List.flatMap_cons, root, Option.elim_some, marksAt, List.flatMap_def,
    List.flatMap_def]
  refine congrArg (r.marks _ ++ List.flatten ·) (List.map_congr_left fun place hplace => ?_)
  cases place with
  | nil => exact absurd rfl (nonempty [] hplace)
  | cons i place => rw [inside]

theorem marksAt_nil {v : Visit σ} (root : visit? [] = some v) :
    r.marksAt visit? [[]] = r.marks v := by
  rw [marksAt, List.flatMap_cons, root]
  exact List.append_nil _

theorem marks_of_visitProperties? : ∀ {es : List (Literal × Literal)} {s : σ} {place : List Nat}
    {v : Visit σ}, r.visitProperties? es s place = some v → r.marks v = []
  | [], _, _, _, h => by cases h
  | (k, l) :: es, s, place, v, h => by
      match place, h with
      | [0, 0], h => cases h; rfl
      | [0, 1], h =>
          obtain ⟨kv, -, rfl⟩ := Option.map_eq_some_iff.1 h
          rfl
      | (i + 1) :: place, h =>
          obtain ⟨entry, -, h⟩ := Option.bind_eq_some_iff.1 h
          exact marks_of_visitProperties? h

/-- The texts of properties leave no marks. -/
theorem marksAt_properties (es : List (Literal × Literal)) (s : σ) :
    r.marksAt (r.visitProperties? es s) places = [] := by
  refine List.flatMap_eq_nil_iff.2 fun place _ => ?_
  cases h : r.visitProperties? es s place with
  | none => rfl
  | some v => exact marks_of_visitProperties? h

/-- Where a node only requests a type, that is its mark. -/
theorem marks_of_requests {v : Visit σ} (silent : r.edges v = []) :
    r.marks v = (r.requests v).map .load := by
  rw [marks, silent]
  rfl

/-- A node without a type to load leaves the marks of its edges. -/
theorem marks_of_edges {v : Visit σ} (silent : r.request? v = none) :
    r.marks v = (r.edges v).map .edge := by
  rw [marks, requests, silent]
  exact List.append_nil _

/-! ### What a node records -/

variable {path : ArgPath}

theorem evaluateText_records (r : Resolver σ) (text : String) :
    Records (r.evaluateText text).run (r.traced.evaluateText text).run fun _ => [] :=
  .after _ _

theorem evaluateName_records (r : Resolver σ) (name : String) :
    Records (r.evaluateName name).run (r.traced.evaluateName name).run fun _ => [] :=
  (evaluateText_records r name).act_map Value.text

theorem evaluateLiteral_records (r : Resolver σ) (l : Literal) :
    Records (valueOf (r.evaluateLiteral l)).run (valueOf (r.traced.evaluateLiteral l)).run
      fun _ => [] := by
  rw [valueOf_evaluateLiteral, valueOf_evaluateLiteral]
  cases l.text with
  | none => exact .pure _
  | some text => exact evaluateText_records r text

/-- The type of a literal is loaded when it remembers none and declares one. -/
theorem targetType_records (r : Resolver σ) (l : Literal) :
    Records (r.targetType l).run (r.traced.targetType l).run fun _ =>
      match l.target, l.typeName with
      | none, some name => [.load name]
      | _, _ => [] := by
  unfold targetType
  rcases l.target with _ | ty
  · rcases l.typeName with _ | name
    · exact .act_pure _
    · exact Records.act_map (.after (.loadType name) _) some
  · exact .act_pure _

/-- The type of a literal is loaded once its text has a value. -/
theorem resolveLiteral_records (r : Resolver σ) (path : ArgPath) (ty : Ty) (l : Literal) :
    Records (valueOf (r.resolveLiteral path l)).run (valueOf (r.traced.resolveLiteral path l)).run
      fun s => r.marks (.value path ty (.literal l) s) := by
  rw [valueOf_resolveLiteral, valueOf_resolveLiteral]
  refine (Records.silent_bind (evaluateLiteral_records r l) fun v =>
    .act_bind_silent ((targetType_records r l).mapError _ _ rfl) fun target => ?_).congr
      fun s => ?_
  · cases target with
    | none => exact .act_pure _
    | some ty => exact Records.mapError (.after _ _) _ _ rfl
  · rw [marks_of_requests rfl, requests, request?, Action.reach_valueOf]
    rcases l.target with _ | _
    · rcases l.typeName with _ | name
      · cases reach (r.evaluateLiteral l) s <;> rfl
      · cases reach (r.evaluateLiteral l) s <;> rfl
    · cases reach (r.evaluateLiteral l) s <;> rfl

theorem resolveProperties_records (r : Resolver σ) (path : ArgPath) :
    ∀ es : List (Literal × Literal),
      Records (valueOf (r.resolveProperties path es)).run
        (valueOf (r.traced.resolveProperties path es)).run fun _ => []
  | [] => .pure _
  | (k, v) :: es => by
      rw [valueOf_resolveProperties_cons, valueOf_resolveProperties_cons]
      refine .act_bind_silent (evaluateLiteral_records r k) fun kv => ?_
      refine .act_bind_silent (evaluateLiteral_records r v) fun vv => ?_
      split
      · exact .pure _
      · exact (resolveProperties_records r path es).act_map ((kv, vv) :: ·)

theorem resolveValue_records (r : Resolver σ) (v : Value) :
    Records (r.resolveValue v).run (r.traced.resolveValue v).run fun _ => [] := by
  unfold resolveValue
  split
  · exact evaluateText_records r _
  · exact (Records.silent_mapM (evaluateText_records r) _).act_map _
  · exact .pure _

theorem lookUpInParent_records (r : Resolver σ) (parent : Lookup σ) (ref : Reference) :
    Records (r.lookUpInParent parent ref).run
      (r.traced.lookUpInParent (parent.traced .inParent) ref).run fun _ => [] := by
  unfold lookUpInParent
  split
  · exact .after _ _
  · exact .act_bind_silent (evaluateName_records r _) fun name => .after _ _

theorem findHere_records (r : Resolver σ) (ref : Reference) :
    Records (r.findHere ref).run (r.traced.findHere ref).run fun _ => [] := by
  unfold findHere
  split
  · exact .after _ _
  · exact .act_bind_silent (evaluateName_records r _) fun name => Records.act_map (.after _ _) _

/-- The bean that is found here is recorded, under the name it is found by. -/
theorem lookUpHere_records (r : Resolver σ) (ref : Reference) :
    Records (r.lookUpHere ref).run (r.traced.lookUpHere ref).run fun s =>
      ((r.findHere ref).reach s).elim [] fun (found, _) => [.edge (.needed found.name r.bean)] :=
  .silent_bind (findHere_records r ref) fun found =>
    (Records.after (.registerDependent found.name r.bean) _).bind fun _ => .pure _

theorem followReference_records (r : Resolver σ) (path : ArgPath) (ref : Reference) :
    Records (r.followReference path ref).run (r.traced.followReference path ref).run fun s =>
      if ref.inParent then []
      else
        ((r.findHere ref).reach s).elim [] fun (found, _) => [.edge (.needed found.name r.bean)] := by
  unfold followReference
  split
  · intro s calls
    have above : r.traced.collaborators.parent ⟨s, calls⟩ =
        ((r.collaborators.parent s).1.map (Lookup.traced .inParent),
          ⟨(r.collaborators.parent s).2, calls ++ [.parent]⟩) := rfl
    rw [Action.run_bind_lift, Action.run_bind_lift, above]
    rcases r.collaborators.parent s with ⟨_ | parent, mid⟩
    · exact ⟨[.parent], rfl, rfl⟩
    · obtain ⟨more, hy, hmore⟩ := (lookUpInParent_records r parent ref).mapError
        (r.referenceError path ref) (r.traced.referenceError path ref) rfl mid (calls ++ [.parent])
      rw [List.append_assoc] at hy
      exact ⟨.parent :: more, hy, hmore⟩
  · exact (lookUpHere_records r ref).mapError _ _ rfl

theorem resolveReference_records (r : Resolver σ) (path : ArgPath) (ty : Ty) (ref : Reference) :
    Records (r.resolveReference path ref).run (r.traced.resolveReference path ref).run fun s =>
      r.marks (.value path ty (.reference ref) s) := by
  refine ((followReference_records r path ref).act_map Managed.toValue).congr fun s => ?_
  rw [marks_of_edges rfl, edges]
  split
  · rfl
  · cases (r.findHere ref).reach s <;> rfl

theorem resolveName_records (r : Resolver σ) (path : ArgPath) (name : String) :
    Records (r.resolveName path name).run (r.traced.resolveName path name).run fun _ => [] := by
  refine .act_bind_silent (evaluateName_records r name) fun name => ?_
  refine .silent_lift (.after (.lookup (.containsBean name)) _) fun known => ?_
  cases known with
  | true => exact .pure _
  | false => exact .pure _

theorem registerCandidates_records (r : Resolver σ) : ∀ names : List String,
    Records (r.registerCandidates names) (r.traced.registerCandidates names) fun s =>
      (r.known names s).map fun name => .edge (.needed name r.bean)
  | [] => .pure _
  | name :: names => by
      rw [registerCandidates, registerCandidates]
      have step : ∀ found : Bool, Records
          (do
            if found then r.collaborators.registerDependent name r.bean
            r.registerCandidates names)
          (do
            if found then r.traced.collaborators.registerDependent name r.bean
            r.traced.registerCandidates names)
          fun s =>
            if found then .edge (.needed name r.bean) ::
              (r.known names (r.collaborators.registerDependent name r.bean s).2).map
                fun name => .edge (.needed name r.bean)
            else (r.known names s).map fun name => .edge (.needed name r.bean) := by
        rintro (_ | _)
        · exact registerCandidates_records r names
        · exact (Records.after (.registerDependent name r.bean) _).bind fun _ =>
            registerCandidates_records r names
      refine ((Records.after (.lookup (.containsBean name)) _).bind step).congr fun s => ?_
      rw [known]
      rcases r.collaborators.containsBean name s with ⟨_ | _, mid⟩ <;> rfl

theorem resolveDependency_records (r : Resolver σ) (path : ArgPath) (ty : Ty) (d : Dependency) :
    Records (r.resolveDependency d).run (r.traced.resolveDependency d).run fun s =>
      r.marks (.value path ty (.dependency d) s) := by
  have rest : ∀ selection : Selection, Records
      (do
        r.registerCandidates (Ordered.ofList selection.candidates)
        return selection.value : Action σ Value).run
      (do
        r.traced.registerCandidates (Ordered.ofList selection.candidates)
        return selection.value : Action (Traced σ) Value).run
      fun s => (r.known selection.candidates.eraseDups s).map
        fun name => .edge (.needed name r.bean) := by
    intro selection
    rw [Ordered.ofList_eq_eraseDups]
    refine ((registerCandidates_records r _).lift_bind fun _ => .act_pure _).congr fun s => ?_
    exact List.append_nil _
  refine (Records.silent_bind (.after _ _) rest).congr fun s => ?_
  rw [marks_of_edges rfl, edges]
  cases (r.collaborators.resolveDependency d r.bean).reach s with
  | none => rfl
  | some selected => exact (List.map_map ..).symm

/-! ### What an inner bean records -/

theorem searchName_records (r : Resolver σ) (base : String) :
    ∀ (tries counter : Nat) (candidate : String),
      Records (r.searchName base tries counter candidate).run
        (r.traced.searchName base tries counter candidate).run fun _ => []
  | 0, _, _ => .pure _
  | tries + 1, counter, candidate => by
      rw [searchName, searchName]
      refine .silent_lift (.after (.isNameInUse candidate) _) fun busy => ?_
      cases busy with
      | true => exact searchName_records r base tries (counter + 1) _
      | false => exact .pure _

theorem innerName_records (r : Resolver σ) (proposed : String) (merged : Blueprint) :
    Records (r.innerName proposed merged).run (r.traced.innerName proposed merged).run
      fun _ => [] := by
  unfold innerName
  split
  · intro s calls
    exact searchName_records r proposed (r.collaborators.namesInUse s + 1) 0 proposed s calls
  · exact .pure _

theorem prepare_records (r : Resolver σ) (inner : String) : ∀ names : List String,
    Records (r.prepare inner names).run (r.traced.prepare inner names).run fun s =>
      (r.attempted inner names s).map fun name => .edge (.needed name inner)
  | [] => .pure _
  | name :: names => by
      rw [prepare, prepare]
      refine .congr (.lift_bind (.after (.registerDependent name inner) _) fun _ =>
        .silent_bind (.after _ _) fun _ => prepare_records r inner names) fun s => ?_
      rw [attempted]
      dsimp only
      cases (r.collaborators.getByName name).reach
        (r.collaborators.registerDependent name inner s).2 <;> rfl

theorem makeInner_records (r : Resolver σ) (inner : String) (merged : Blueprint) :
    Records (r.makeInner inner merged).run (r.traced.makeInner inner merged).run fun s =>
      (r.attempted inner merged.dependsOn s).map fun name => .edge (.needed name inner) := by
  unfold makeInner
  refine (prepare_records r inner merged.dependsOn).act_bind_silent fun _ => ?_
  refine .act_bind_silent (.after _ _) fun made => ?_
  cases made with
  | factory factory => exact Records.act_map (.after _ _) _
  | _ => exact .pure _

theorem createInner_records (r : Resolver σ) (inner : String) (merged : Blueprint) :
    Records (r.createInner inner merged).run (r.traced.createInner inner merged).run fun s =>
      (r.innerEdges inner merged s).map .edge := by
  refine ((Records.after (.registerContained inner r.bean) _).bind fun _ =>
    makeInner_records r inner merged).congr fun s => ?_
  exact congrArg (Mark.edge (.contained inner r.bean) :: ·) (List.map_map ..).symm

theorem marks_inner {path : ArgPath} {ty : Ty} {raw : Raw} {proposed : String} {b : Blueprint}
    (nested : r.inner? raw = some (proposed, b)) (s : σ) :
    r.marks (.value path ty raw s) =
      (((r.collaborators.mergeBlueprint proposed b r.blueprint).reach s).elim [] fun (merged, s) =>
        ((r.innerName proposed merged).reach s).elim [] fun (inner, s) =>
          r.innerEdges inner merged s).map .edge := by
  cases raw with
  | holder | nested => cases nested; exact marks_of_edges rfl
  | _ => cases nested

theorem resolveInner_records (path : ArgPath) (ty : Ty) {raw : Raw} {proposed : String}
    {b : Blueprint} (nested : r.inner? raw = some (proposed, b)) :
    Records (r.resolveInner path proposed b).run
      (r.traced.resolveInner path proposed b).run fun s => r.marks (.value path ty raw s) := by
  refine (Records.silent_bind (Records.mapError (.after _ _) _ _ rfl) fun merged =>
    .silent_bind (innerName_records r proposed merged) fun inner =>
      (createInner_records r inner merged).mapError _ _ rfl).congr fun s => ?_
  rw [marks_inner nested, Action.reach_mapError]
  rcases (r.collaborators.mergeBlueprint proposed b r.blueprint).reach s with _ | ⟨merged, mid⟩
  · rfl
  · dsimp only [Option.elim]
    cases (r.innerName proposed merged).reach mid <;> rfl

/-! ### What a resolution records -/

/-- The visit of a node with nothing in it leaves the marks of its resolution. -/
theorem records_node {raw : Raw} {ty : Ty}
    (h : Records (valueOf (r.resolve path raw)).run (valueOf (r.traced.resolve path raw)).run fun s =>
      r.marks (.value path ty raw s)) (places : raw.places = [[]]) :
    Records (valueOf (r.resolve path raw)).run (valueOf (r.traced.resolve path raw)).run fun s =>
      r.marksAt (r.visit? path ty raw s) raw.places :=
  h.congr fun s => by
    rw [places, marksAt_nil (v := .value path ty raw s) (by cases raw <;> rfl)]

theorem convertElement_records (r : Resolver σ) (path : ArgPath) (ty : Ty) (v : Value) :
    Records (r.convertElement path ty v).run (r.traced.convertElement path ty v).run
      fun _ => [] := by
  unfold convertElement
  split
  · exact .act_pure v
  · exact Records.mapError (.after _ _) _ _ rfl

/-- The element type of an array is loaded when it remembers none and declares one. -/
theorem elementType_records (r : Resolver σ) (path : ArgPath) (ty : Ty) (typeName : Option String)
    (remembered : Option Ty) (es : List Raw) :
    Records (r.elementType path typeName remembered).run
      (r.traced.elementType path typeName remembered).run fun s =>
        r.marks (.value path ty (.array typeName remembered es) s) := by
  cases remembered with
  | some known => exact .act_pure known
  | none =>
      unfold elementType
      have same : ∀ s, r.marks (.value path ty (.array typeName none es) s) =
          (declaredElementType typeName).toList.map .load := by
        intro s
        rw [marks_of_requests rfl, requests, request?]
        cases declaredElementType typeName <;> rfl
      simp only [same]
      cases declaredElementType typeName with
      | none => exact .act_pure Ty.any
      | some name => exact Records.mapError (.after (.loadType name) _) _ _ rfl

/-- The conversion of an element leaves no mark. -/
theorem converted_records {raw : Raw} {made : σ → List Mark} (ty : Ty)
    (h : Records (valueOf (r.resolve path raw)).run (valueOf (r.traced.resolve path raw)).run
      made) :
    Records (r.converted path ty raw).run (r.traced.converted path ty raw).run made :=
  h.act_bind_silent (convertElement_records r path ty)

mutual

/-- **A resolution leaves the marks of its visits, in the order of traversal.** -/
theorem resolve_records (path : ArgPath) (ty : Ty) : ∀ raw : Raw,
    Records (valueOf (r.resolve path raw)).run (valueOf (r.traced.resolve path raw)).run fun s =>
      r.marksAt (r.visit? path ty raw s) raw.places
  | .null => records_node (.act_pure Value.null) rfl
  | .literal l => records_node (resolveLiteral_records r path ty l) rfl
  | .value v => records_node (resolveValue_records r v) rfl
  | .reference ref => records_node (resolveReference_records r path ty ref) rfl
  | .nameReference name => records_node (resolveName_records r path name) rfl
  | .dependency d => records_node (resolveDependency_records r path ty d) rfl
  | .holder _ _ _ _ => records_node (resolveInner_records path ty rfl) rfl
  | .nested _ _ => records_node (resolveInner_records path ty rfl) rfl
  | .array typeName remembered es => by
      rw [valueOf_resolve_array, valueOf_resolve_array]
      refine ((elementType_records r path ty typeName remembered es).act_bind fun elementTy =>
        (resolveElements_records path elementTy es 0).act_map (Value.array elementTy)).congr
          fun s => ?_
      -- no element is visited before their type is known
      rw [Raw.places, marksAt_collection path ty _ s
        (fun place => ((r.elementType path typeName remembered).reach s).bind fun (ty, s) =>
          r.visitElements? path ty 0 es s place)
        (Raw.ne_nil_of_mem_placesAll es) (visit?_array_cons path ty typeName remembered es s),
        marksAt_bind]
  | .list es => by
      rw [valueOf_resolve_list, valueOf_resolve_list]
      refine ((resolveElements_records path .any es 0).act_map Value.list).congr fun s => ?_
      exact (marksAt_collection path ty (.list es) s (r.visitElements? path .any 0 es s)
        (Raw.ne_nil_of_mem_placesAll es) fun _ _ => rfl).symm
  | .set es => by
      rw [valueOf_resolve_set, valueOf_resolve_set]
      refine ((resolveElements_records path .any es 0).act_map Value.setOf).congr fun s => ?_
      exact (marksAt_collection path ty (.set es) s (r.visitElements? path .any 0 es s)
        (Raw.ne_nil_of_mem_placesAll es) fun _ _ => rfl).symm
  | .map es => by
      rw [valueOf_resolve_map, valueOf_resolve_map]
      refine ((resolveEntries_records path es).act_map Value.mapOf).congr fun s => ?_
      exact (marksAt_collection path ty (.map es) s (r.visitEntries? path es s)
        (Raw.ne_nil_of_mem_placesEntries es) fun _ _ => rfl).symm
  | .properties es => by
      rw [valueOf_resolve_properties, valueOf_resolve_properties]
      refine ((resolveProperties_records r path es).act_map Value.propertiesOf).congr fun s => ?_
      refine (marksAt_properties es s).symm.trans (marksAt_collection path ty (.properties es) s
        (r.visitProperties? es s) (Raw.ne_nil_of_mem_placesLiterals es) fun _ _ => rfl).symm

theorem resolveElements_records (path : ArgPath) (ty : Ty) : ∀ (es : List Raw) (n : Nat),
    Records (valueOf (r.resolveElements path ty n es)).run
      (valueOf (r.traced.resolveElements path ty n es)).run fun s =>
        r.marksAt (r.visitElements? path ty n es s) (Raw.placesAll es)
  | [], _ => .act_pure []
  | e :: es, n => by
      rw [valueOf_resolveElements_cons, valueOf_resolveElements_cons]
      refine ((converted_records ty (resolve_records (path.index n) ty e)).act_bind fun v =>
        (resolveElements_records path ty es (n + 1)).act_map (v :: ·)).congr fun s => ?_
      rw [Raw.placesAll, marksAt_append, marksAt_map fun _ => rfl,
        marksAt_map (visitElements?_shift path ty n e es s), marksAt_bind, reach_converted]
      rfl

theorem resolveEntries_records (path : ArgPath) : ∀ es : List (Raw × Raw),
    Records (valueOf (r.resolveEntries path es)).run
      (valueOf (r.traced.resolveEntries path es)).run fun s =>
        r.marksAt (r.visitEntries? path es s) (Raw.placesEntries es)
  | [] => .act_pure []
  | (k, v) :: es => by
      rw [valueOf_resolveEntries_cons, valueOf_resolveEntries_cons]
      refine ((resolve_records path .any k).act_bind fun kv =>
        (resolve_records (path.key kv) .any v).act_bind fun vv =>
          (resolveEntries_records path es).act_map ((kv, vv) :: ·)).congr fun s => ?_
      have ofKey : r.marksAt (r.visitEntries? path ((k, v) :: es) s) (k.places.map (0 :: 0 :: ·)) =
          r.marksAt (r.visit? path .any k s) k.places := marksAt_map fun _ => rfl
      have ofValue :
          r.marksAt (r.visitEntries? path ((k, v) :: es) s) (v.places.map (0 :: 1 :: ·)) =
            (reach (r.resolve path k) s).elim [] fun (kv, s) =>
              r.marksAt (r.visit? (path.key kv) .any v s) v.places :=
        (marksAt_map fun _ => rfl).trans (marksAt_bind _ _)
      rw [Raw.placesEntries, marksAt_append, marksAt_append, ofKey, ofValue,
        marksAt_map (visitEntries?_shift path k v es s), marksAt_bind, Action.reach_valueOf]
      cases reach (r.resolve path k) s with
      | none => rfl
      | some key =>
          refine congrArg (r.marksAt _ k.places ++ ·) ?_
          exact congrArg (_ ++ ·) (marksAt_bind _ _).symm

end

/-- The marks of a resolution are those of its visits. -/
theorem marks_of_calls (r : Resolver σ) (path : ArgPath) (raw : Raw) (s : σ) :
    (r.calls path raw s).filterMap Call.mark? = r.marksAt (r.visit? path .any raw s) raw.places :=
  (resolve_records path .any raw).marks s

theorem edge?_of_marks (v : Visit σ) : (r.marks v).filterMap Mark.edge? = r.edges v := by
  rw [marks, List.filterMap_append, List.filterMap_map, List.filterMap_map]
  exact (congrArg₂ (· ++ ·) List.filterMap_some (List.filterMap_none _)).trans
    (List.append_nil _)

theorem load?_of_marks (v : Visit σ) : (r.marks v).filterMap Mark.load? = r.requests v := by
  rw [marks, List.filterMap_append, List.filterMap_map, List.filterMap_map]
  exact congrArg₂ (· ++ ·) (List.filterMap_none _) List.filterMap_some

/-- **The edges among the calls of a resolution are those of its visits**, in the order of
traversal. -/
theorem edges_of_calls (r : Resolver σ) (path : ArgPath) (raw : Raw) (s : σ) :
    (r.calls path raw s).filterMap Call.edge? =
      raw.places.flatMap fun place => (r.visit? path .any raw s place).elim [] r.edges := by
  rw [← Mark.filterMap_edge?, marks_of_calls, marksAt, List.filterMap_flatMap]
  refine congrArg (raw.places.flatMap ·) (funext fun place => ?_)
  cases r.visit? path .any raw s place with
  | none => rfl
  | some v => exact edge?_of_marks v

/-- **The types that a resolution has loaded are those its visits request**, in the order of
traversal. -/
theorem loads_of_calls (r : Resolver σ) (path : ArgPath) (raw : Raw) (s : σ) :
    (r.calls path raw s).filterMap Call.load? =
      raw.places.flatMap fun place => (r.visit? path .any raw s place).elim [] r.requests := by
  rw [← Mark.filterMap_load?, marks_of_calls, marksAt, List.filterMap_flatMap]
  refine congrArg (raw.places.flatMap ·) (funext fun place => ?_)
  cases r.visit? path .any raw s place with
  | none => rfl
  | some v => exact load?_of_marks v

end Resolver

end Wiring
