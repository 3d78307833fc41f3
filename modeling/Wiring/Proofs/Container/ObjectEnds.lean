import Wiring.Proofs.Blueprint.Leaves
import Wiring.Proofs.Container.Ends

/-!
# Containers — objects that end

A raw value leads to look-ups by its leaves (`Raw.LooksUp`), and to the making of the objects that
it nests.  **The making of an object ends with the look-ups that its blueprint leads to at any
depth** (`makingEnds_of_looks`): its bound is theirs, one more for the object itself, and one more
for each blueprint nested in it.
-/

namespace Wiring

/-- What a leaf looks up: by name, what the text of a reference evaluates to, in the chain or in the
one above it, and the beans that a nested blueprint depends on; and by type, for a reference to a
type and for an injection point. -/
def Raw.LooksUp (how : Evaluation) (byName : Chain → String → Prop) (byType : Prop)
    (chain : Chain) : Raw → Prop
  | .reference ⟨.name text, false⟩ => ∀ v, how.evaluate chain.own.placeholders text = .ok v →
      byName chain v.text
  | .reference ⟨.name text, true⟩ => ∀ v, how.evaluate chain.own.placeholders text = .ok v →
      ∀ up rest, chain.ancestors = up :: rest → byName ⟨up, rest⟩ v.text
  | .reference ⟨.type _, _⟩ | .dependency _ => byType
  | .holder _ _ _ b | .nested _ b => ∀ name ∈ b.dependsOn, byName chain name
  | _ => True

/-- What holds of all that is looked up may be weakened. -/
theorem Raw.LooksUp.imp {how : Evaluation} {P Q : Chain → String → Prop} {p q : Prop}
    {chain : Chain} {leaf : Raw} (h : leaf.LooksUp how P p chain)
    (names : ∀ up : Chain, up.containers <:+ chain.containers → ∀ name, P up name → Q up name)
    (types : p → q) : leaf.LooksUp how Q q chain := by
  have here := names chain List.suffix_rfl
  cases leaf with
  | reference ref =>
      match ref, h with
      | ⟨.type _, _⟩, h => exact types h
      | ⟨.name _, false⟩, h => exact fun v hv => here _ (h v hv)
      | ⟨.name _, true⟩, h =>
          intro v hv up rest above
          refine names ⟨up, rest⟩ ?_ _ (h v hv up rest above)
          rw [Chain.containers, Chain.containers, above]
          exact List.suffix_cons _ _
  | dependency point => exact types h
  | holder _ _ _ b | nested _ b => exact fun name hname => here name (h name hname)
  | _ => exact trivial

/-- A leaf that has grown looks up what it did. -/
theorem Raw.LooksUp.of_grows {how : Evaluation} {P : Chain → String → Prop} {p : Prop}
    {chain : Chain} {leaf left : Raw} (h : leaf.LooksUp how P p chain) (grows : leaf.Grows left) :
    left.LooksUp how P p chain := by
  cases leaf with
  | null | value _ | reference _ | nameReference _ | dependency _ | holder _ _ _ _ | nested _ _ =>
      cases grows
      exact h
  | _ => cases left <;> first | exact trivial | exact grows.elim

namespace Chain

variable {start : Chain} {bound d e : Nat} {name : String} {b : Blueprint} {evaluation : Evaluation}
  {r : Resolver Chain}

/-! ### Leaves -/

section

variable (hd : bound ≤ d) (he : bound ≤ e)
include hd he

theorem lookUpInParent_endsAlike (hr : r.collaborators = collaborators (create d) evaluation)
    {target : RefTarget}
    (looks : (Raw.reference ⟨target, true⟩).LooksUp evaluation (LookupEnds bound)
      (LookupsEnd bound start) start) :
    EndsAlike (GrownFrom start) Ended
      (r.lookUpInParent (parentLookups (create d)) ⟨target, true⟩).run
      ((r.on (collaborators (create e) evaluation)).lookUpInParent (parentLookups (create e))
        ⟨target, true⟩).run := by
  cases target with
  | type ty =>
      exact inParent_endsAlike _ fun up rest above =>
        getByType_endsAlike hd he (looks.above above) ty
  | name text =>
      refine Action.endsAlike_bind
        (Resolver.evaluateName_endsAlike (endsBeside hr (create e)) text)
        fun s name hs evaluated => ?_
      obtain ⟨v, hv, rfl⟩ := value_of_evaluateName hr hs evaluated
      exact inParent_endsAlike _ fun up rest above => looks v hv up rest above d e hd he

theorem findHere_endsAlike (hr : r.collaborators = collaborators (create d) evaluation)
    {target : RefTarget}
    (looks : (Raw.reference ⟨target, false⟩).LooksUp evaluation (LookupEnds bound)
      (LookupsEnd bound start) start) :
    EndsAlike (GrownFrom start) Ended (r.findHere ⟨target, false⟩).run
      ((r.on (collaborators (create e) evaluation)).findHere ⟨target, false⟩).run := by
  cases target with
  | type ty =>
      rw [Resolver.findHere, Resolver.findHere, hr]
      exact resolveNamedByType_endsAlike hd he looks ty
  | name text =>
      refine Action.endsAlike_bind
        (Resolver.evaluateName_endsAlike (endsBeside hr (create e)) text)
        fun s name hs evaluated => ?_
      obtain ⟨v, hv, rfl⟩ := value_of_evaluateName hr hs evaluated
      rw [hr]
      exact Action.endsAlike_bind (looks v hv d e hd he) fun _ _ _ _ => Action.endsAlike_pure _

theorem resolveReference_endsAlike (hr : r.collaborators = collaborators (create d) evaluation)
    (path : ArgPath) {ref : Reference}
    (looks : (Raw.reference ref).LooksUp evaluation (LookupEnds bound) (LookupsEnd bound start)
      start) :
    EndsAlike (GrownFrom start) Ended (r.resolveReference path ref).run
      ((r.on (collaborators (create e) evaluation)).resolveReference path ref).run := by
  obtain ⟨target, inParent⟩ := ref
  cases inParent with
  | false =>
      exact Resolver.resolveReference_endsAlike (endsBeside hr (create e)) path rfl
        (findHere_endsAlike hd he hr looks)
  | true =>
      refine Action.endsAlike_bind (fun s hs => ?_) fun _ bean _ _ =>
        Action.endsAlike_pure bean.toValue
      have above := Action.endsAlike_mapError (r.referenceError path ⟨target, true⟩)
        (lookUpInParent_endsAlike hd he hr looks) s hs
      have run : (r.followReference path ⟨target, true⟩).run s = _ :=
        run_followReference_above hr path rfl s
      have run' : ((r.on (collaborators (create e) evaluation)).followReference path
          ⟨target, true⟩).run s = _ := run_followReference_above rfl path rfl s
      cases top : s.ancestors.isEmpty with
      | true =>
          rw [top, if_pos rfl] at run run'
          refine ⟨run'.trans run.symm, ?_, ?_⟩ <;> rw [run]
          · exact ended_error _
          · exact hs
      | false =>
          rw [top, if_neg Bool.false_ne_true] at run run'
          refine ⟨?_, ?_, ?_⟩ <;> rw [run]
          · exact run'.trans above.same
          · exact above.done
          · exact above.kept

theorem resolveInner_endsAlike (hr : r.collaborators = collaborators (create d) evaluation)
    (path : ArgPath) (proposed : String) (nested : Blueprint)
    (looks : ∀ name ∈ nested.dependsOn, LookupEnds bound start name)
    (made : ∀ scope name, EndsAlike (GrownFrom start) Resolved.Ended
      (create d name { nested with scope }) (create e name { nested with scope })) :
    EndsAlike (GrownFrom start) Ended (r.resolveInner path proposed nested).run
      ((r.on (collaborators (create e) evaluation)).resolveInner path proposed nested).run := by
  refine Resolver.resolveInner_endsAlike (endsBeside hr (create e)) path proposed nested
    fun s merged _ merges => ?_
  rw [hr] at merges ⊢
  rw [merge_eq (Action.ok_of_ofExcept (Prod.ext merges rfl)).1]
  exact ⟨fun name hname => looks name hname d e hd he, fun inner =>
    (made _ inner).bind fun _ _ ended => .pure ended⟩

/-- A leaf ends with what it looks up and with the making of the object it nests. -/
theorem leaf_endsAlike (hr : r.collaborators = collaborators (create d) evaluation) {leaf : Raw}
    (looks : leaf.LooksUp evaluation (LookupEnds bound) (LookupsEnd bound start) start)
    (made : ∀ {cell nested}, leaf.cells = (cell, nested) :: Raw.cellsBlueprint nested →
      ∀ scope name, EndsAlike (GrownFrom start) Resolved.Ended
        (create d name { nested with scope }) (create e name { nested with scope })) :
    Resolver.LeafEndsAlike (GrownFrom start) r (collaborators (create e) evaluation) leaf := by
  cases leaf with
  | reference ref => exact fun path => resolveReference_endsAlike hd he hr path looks
  | dependency point =>
      refine Resolver.resolveDependency_endsAlike (endsBeside hr (create e)) point ?_
      rw [hr]
      exact resolveDependency_endsAlike hd he looks point r.bean
  | holder name _ _ b =>
      exact fun path => resolveInner_endsAlike hd he hr path name b looks (made rfl)
  | nested _ b => exact fun path => resolveInner_endsAlike hd he hr path _ b looks (made rfl)
  | _ => exact trivial

end

/-! ### Making objects -/

section

variable {I : Chain → Prop} {c : Collaborators Chain}

theorem resolveArgs_endsAlike (h : r.EndsBeside I c) : ∀ (raws : List Raw) (i : Nat),
    (∀ leaf ∈ Raw.leavesAll raws, Resolver.LeafEndsAlike I r c leaf) →
      EndsAlike I Resolved.Ended (resolveArgs r i raws) (resolveArgs (r.on c) i raws)
  | [], _, _ => .pure (ended_ok _)
  | raw :: raws, i, leaf => by
      obtain ⟨hraw, hraws⟩ := List.forall_mem_append.1 leaf
      rw [resolveArgs, resolveArgs]
      refine (Resolver.resolve_endsAlike h raw hraw _).bind_resolved (· :: raws) (fun _ _ => rfl)
        (fun _ _ => rfl) fun node v => ?_
      exact (resolveArgs_endsAlike h raws (i + 1) hraws).map (node :: ·) (v :: ·)

theorem resolveProperties_endsAlike (h : r.EndsBeside I c) : ∀ ps : List (String × Raw),
    (∀ leaf ∈ Raw.leavesAll (ps.map Prod.snd), Resolver.LeafEndsAlike I r c leaf) →
      EndsAlike I Resolved.Ended (resolveProperties r ps) (resolveProperties (r.on c) ps)
  | [], _ => .pure (ended_ok _)
  | (name, raw) :: ps, leaf => by
      obtain ⟨hraw, hps⟩ := List.forall_mem_append.1 leaf
      rw [resolveProperties, resolveProperties]
      refine (Resolver.resolve_endsAlike h raw hraw _).bind_resolved
        (fun node => (name, node) :: ps) (fun _ _ => rfl) (fun _ _ => rfl) fun node v => ?_
      exact (resolveProperties_endsAlike h ps hps).map ((name, node) :: ·) ((name, v) :: ·)

end

/-- The making of an object ends with its leaves. -/
theorem create_succ_endsAlike
    (leaf : ∀ leaf ∈ b.leaves, Resolver.LeafEndsAlike (GrownFrom start)
      { collaborators := collaborators (create d), bean := name, blueprint := b }
      (collaborators (create e)) leaf) :
    EndsAlike (GrownFrom start) Resolved.Ended (create (d + 1) name b)
      (create (e + 1) name b) := by
  have beside : Resolver.EndsBeside (GrownFrom start)
      { collaborators := collaborators (create d), bean := name, blueprint := b }
      (collaborators (create e)) := endsBeside rfl (create e)
  obtain ⟨arguments, properties⟩ := List.forall_mem_append.1 leaf
  have values : EndsAlike (GrownFrom start) Resolved.Ended
      (instantiate (collaborators (create d)) name b)
      (instantiate (collaborators (create e)) name b) := by
    refine (resolveArgs_endsAlike beside b.args 0 arguments).bind_resolved
      (fun args => { b with args }) (fun _ _ => rfl) (fun _ _ => rfl) fun args argValues => ?_
    refine (resolveProperties_endsAlike beside b.properties properties).bind_resolved
      (fun properties => { b with args, properties }) (fun _ _ => rfl) (fun _ _ => rfl)
      fun properties propertyValues => ?_
    have built : EndsAlike (GrownFrom start) (fun _ => True)
        (newObject name (b.className.getD "object") argValues propertyValues)
        (newObject name (b.className.getD "object") argValues propertyValues) :=
      .of_self fun s hs =>
        ⟨trivial, grown_of_along (newObject_along Container.workAlong_grows _ _ _ _) hs⟩
    exact built.bind fun _ _ _ => .pure (ended_ok _)
  refine (modifyOwn_endsAlike fun c => Container.workAlong_grows.begin c ⟨name, b⟩).bind
    fun _ _ _ => ?_
  dsimp only
  split
  · exact Action.endsAlike_leaving b (Action.endsAlike_fail _)
  · refine values.bind_resolved id (fun _ _ => rfl) (fun _ _ => rfl) fun node v => ?_
    exact (modifyOwn_endsAlike fun c => Container.grows_note c (.made name b)).bind
      fun _ _ _ => .pure (ended_ok _)

theorem deepLeaves_scope (b : Blueprint) (scope : Scope) :
    BlueprintOf.deepLeaves { b with scope } = b.deepLeaves := by
  cases b
  rfl

theorem cells_scope (b : Blueprint) (scope : Scope) :
    Raw.cellsBlueprint { b with scope } = Raw.cellsBlueprint b := by
  cases b
  rfl

/-- **The making of an object ends a few bounds after the look-ups in its blueprint**: one for
itself, and one for each blueprint nested in it. -/
theorem makingEnds_of_looks : ∀ (n : Nat) {b : Blueprint}, (Raw.cellsBlueprint b).length ≤ n →
    (∀ leaf ∈ b.deepLeaves,
      leaf.LooksUp .placeholders (LookupEnds bound) (LookupsEnd bound start) start) →
    ∀ name, MakingEnds (bound + n + 1) start name b
  | n, b, hn, looks, name, d, e, hd, he => by
      obtain ⟨d, rfl⟩ := Nat.exists_eq_add_of_le' (Nat.le_of_add_left_le hd)
      obtain ⟨e, rfl⟩ := Nat.exists_eq_add_of_le' (Nat.le_of_add_left_le he)
      refine create_succ_endsAlike fun leaf hleaf => ?_
      have hd : bound ≤ d := by omega
      have he : bound ≤ e := by omega
      refine leaf_endsAlike hd he rfl
        (looks leaf (List.mem_append_left _ hleaf)) fun {cell nested} nests scope inner => ?_
      have fewer := BlueprintOf.cells_lt_of_leaf hleaf nests
      obtain ⟨n, rfl⟩ := Nat.exists_eq_add_one_of_ne_zero (show n ≠ 0 by omega)
      refine makingEnds_of_looks n ?_ ?_ inner d e (by omega) (by omega)
      · rw [cells_scope]
        omega
      · rw [deepLeaves_scope]
        exact fun leaf h => looks leaf (BlueprintOf.deepLeaves_of_leaf hleaf nests h)

/-! ### Resolving raw values -/

/-- Where every look-up ends, whatever a leaf looks up does. -/
theorem looksUp_of_lookupsEnd (all : LookupsEnd bound start) (how : Evaluation) (leaf : Raw) :
    leaf.LooksUp how (LookupEnds bound) (LookupsEnd bound start) start := by
  cases leaf with
  | reference ref =>
      match ref with
      | ⟨.type _, _⟩ => exact all
      | ⟨.name _, false⟩ => exact fun v _ => all start List.suffix_rfl v.text
      | ⟨.name _, true⟩ => exact fun v _ up rest above => all.above above _ List.suffix_rfl v.text
  | dependency point => exact all
  | holder _ _ _ b | nested _ b => exact fun name _ => all start List.suffix_rfl name
  | _ => exact trivial

/-- **Where every look-up ends, every resolution ends**, of whatever raw value for whatever bean. -/
theorem resolve_endsAlike (all : LookupsEnd bound start) (raw : Raw)
    (hd : bound + raw.cells.length ≤ d) (he : bound + raw.cells.length ≤ e)
    (hr : r.collaborators = collaborators (create d) evaluation) (path : ArgPath) :
    EndsAlike (GrownFrom start) Resolved.Ended (r.resolve path raw)
      ((r.on (collaborators (create e) evaluation)).resolve path raw) := by
  refine Resolver.resolve_endsAlike (endsBeside hr (create e)) raw (fun leaf hleaf => ?_) path
  refine leaf_endsAlike (Nat.le_of_add_right_le hd) (Nat.le_of_add_right_le he) hr
    (looksUp_of_lookupsEnd all evaluation leaf) fun {cell nested} nests scope name => ?_
  have few := (Raw.cells_sublist_of_leaf hleaf).length_le
  rw [nests, List.length_cons] at few
  refine makingEnds_of_looks _ (Nat.le_of_eq (congrArg List.length (cells_scope nested scope)))
    (fun leaf _ => looksUp_of_lookupsEnd all .placeholders leaf) name d e ?_ ?_
  · omega
  · omega

end Chain

end Wiring
