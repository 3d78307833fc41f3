import Wiring.Proofs.Container.Growth
import Wiring.Proofs.Container.Presence
import Wiring.Proofs.Resolver.Ends

/-!
# Containers — look-ups that end

The making of objects is bounded (`Chain.create`), and so are the look-ups that have objects made.
`LookupEnds bound start name` says that the look-up of the name comes to the same end under all
bounds from `bound` on, in every state that has grown from `start` (`Chain.GrownFrom`);
`MakingEnds` says so of an object.

**A look-up by name ends with the making of the object it would have made** (`Chain.defining`,
`lookupEnds_of_makings`), whatever has been made and remembered in between.  Where every look-up by
name ends, those by type do, and the choices for injection points.  All else that a resolver asks of
the chain ends under any bounds (`endsBeside`).
-/

namespace Wiring

namespace Chain

/-- The states that have grown from `start`. -/
abbrev GrownFrom (start : Chain) : Chain → Prop :=
  Each Container.Grows start

variable {start : Chain} {bound d e : Nat} {name : String} {b : Blueprint} {make make' : Maker}
  {evaluation : Evaluation} {r : Resolver Chain}

/-- From every state grown from `start`, the look-up comes to the same end under all bounds from
`bound` on. -/
def LookupEnds (bound : Nat) (start : Chain) (name : String) : Prop :=
  ∀ d e, bound ≤ d → bound ≤ e → EndsAlike (GrownFrom start) Ended
    (getByName (create d) name).run (getByName (create e) name).run

/-- From every state grown from `start`, the making of the object comes to the same end under all
bounds from `bound` on. -/
def MakingEnds (bound : Nat) (start : Chain) (name : String) (b : Blueprint) : Prop :=
  ∀ d e, bound ≤ d → bound ≤ e → EndsAlike (GrownFrom start) Resolved.Ended
    (create d name b) (create e name b)

/-- Work along growth stays among the states grown from `start`. -/
theorem grown_of_along {α : Type} {x : StateM Chain α} (h : Along (Each Container.Grows) x)
    {s : Chain} (hs : GrownFrom start s) : GrownFrom start (x s).2 :=
  trans_of (Each Container.Grows) hs (h s)

theorem modifyOwn_endsAlike {f : Container → Container} (h : ∀ c, Container.Grows c (f c)) :
    EndsAlike (GrownFrom start) (fun _ => True) (modify (modifyOwn f))
      (modify (modifyOwn f)) :=
  .of_self fun _ hs => ⟨trivial, grown_of_along (along_modifyOwn h) hs⟩

/-- Work on the containers above comes to the same end if it does so up there. -/
theorem inParent_endsAlike {α : Type} {x y : Action Chain α} (none : Error)
    (h : ∀ up rest, start.ancestors = up :: rest →
      EndsAlike (GrownFrom ⟨up, rest⟩) Ended x.run y.run) :
    EndsAlike (GrownFrom start) Ended (inParent (Action.fail none) x).run
      (inParent (Action.fail none) y).run := by
  intro s hs
  rcases above : s.ancestors with _ | ⟨up', rest'⟩
  · refine ⟨?_, ?_, ?_⟩ <;> rw [run_inParent_nil _ _ above]
    · rw [run_inParent_nil _ _ above]
    · exact ended_error none
    · exact hs
  · have hancestors := hs.ancestors
    rw [above] at hancestors
    rcases hstart : start.ancestors with _ | ⟨up, rest⟩ <;> rw [hstart] at hancestors
    · cases hancestors
    obtain ⟨hup, hrest⟩ := List.forall₂_cons.1 hancestors
    have run := h up rest hstart ⟨up', rest'⟩ ⟨hup, hrest⟩
    refine ⟨?_, ?_, ?_⟩ <;> rw [run_inParent_cons _ _ above]
    · rw [run_inParent_cons _ _ above, run.same]
    · exact run.done
    · refine ⟨hs.own, ?_⟩
      rw [hstart]
      exact .cons run.kept.own run.kept.ancestors

theorem unwrapProduct_endsAlike (factory : Value) (name : String) (postProcess : Bool) :
    EndsAlike (GrownFrom start) Ended (unwrapProduct factory name postProcess).run
      (unwrapProduct factory name postProcess).run := by
  refine Action.endsAlike_bind_lift
    (modifyOwn_endsAlike fun c => Container.workAlong_grows.unwrap c _ (.inl trivial)) fun _ _ => ?_
  split
  · exact Action.endsAlike_fail _
  · exact Action.endsAlike_pure _
  · exact Action.endsAlike_pure _

/-- Look-ups and objects aside, a resolver of the chain comes to the same end under any bounds. -/
theorem endsBeside (hr : r.collaborators = collaborators make evaluation) (make' : Maker) :
    r.EndsBeside (GrownFrom start) (collaborators make' evaluation) where
  evaluate text := by
    rw [Resolver.evaluateText, hr]
    exact Action.endsAlike_get_bind fun s hs => Action.endsAlike_ofExcept _ s hs
  loadType name := by
    rw [hr]
    exact Action.endsAlike_get_bind fun s hs => Action.endsAlike_ofExcept _ s hs
  coerce v ty := by
    rw [hr]
    exact Action.endsAlike_ofExcept _
  containsBean name := by
    rw [hr]
    exact .of_self fun s hs => ⟨trivial, hs⟩
  registerDependent a b := by
    rw [hr]
    exact modifyOwn_endsAlike fun c => Container.grows_registerDependent c a b
  registerContained a b := by
    rw [hr]
    exact modifyOwn_endsAlike fun c => Container.grows_registerContained c a b
  mergeBlueprint proposed nested := by
    rw [hr]
    exact Action.endsAlike_ofExcept _
  freshName proposed := by
    intro s hs
    obtain ⟨k, hk, hrun⟩ := run_freshName hr s proposed
    have hr' : (r.on (collaborators make' evaluation)).collaborators =
        collaborators make' evaluation := rfl
    obtain ⟨k', hk', hrun'⟩ := run_freshName hr' s proposed
    obtain rfl := hk.unique hk'
    refine ⟨hrun'.trans hrun.symm, ?_, ?_⟩ <;> rw [hrun]
    · exact ended_ok _
    · exact grown_of_along (along_modifyOwn fun c => Container.grows_grant c _) hs
  unwrapProduct factory name postProcess := by
    rw [hr]
    exact unwrapProduct_endsAlike factory name postProcess

/-! ### Look-ups by name -/

theorem makeBean_endsAlike
    (made : EndsAlike (GrownFrom start) Resolved.Ended (make name b) (make' name b)) :
    EndsAlike (GrownFrom start) Ended (makeBean make name b).run (makeBean make' name b).run := by
  have learned : EndsAlike (GrownFrom start) Ended (makeDefined make name b).run
      (makeDefined make' name b).run :=
    made.bind fun _ _ ended => (modifyOwn_endsAlike fun c => Container.grows_learn c _ _).bind
      fun _ _ _ => .pure ended
  refine Action.endsAlike_bind learned fun _ bean _ _ => ?_
  cases bean with
  | factory factory => exact unwrapProduct_endsAlike factory name true
  | value v => exact Action.endsAlike_pure _
  | null => exact Action.endsAlike_pure _

/-- The making of a definition's bean ends with the making of its object. -/
theorem realize_endsFrom {s : Chain} (hs : GrownFrom start s)
    (absent : s.own.singletons.get? name = none) (defined : s.own.definitions.get? name = some b)
    (made : EndsAlike (GrownFrom start) Resolved.Ended (create d name b) (create e name b)) :
    EndsFrom (GrownFrom start) Ended (realize (create d) name b).run
      (realize (create e) name b).run s := by
  have begun := (modifyOwn_endsAlike fun c => Container.grows_note c (.began name)) s hs
  have bean := makeBean_endsAlike made _ begun.kept
  have same : (makeBean (create e) name b).run (s.modifyOwn fun c => c.note (.began name)) =
      (makeBean (create d) name b).run (s.modifyOwn fun c => c.note (.began name)) := bean.same
  refine ⟨?_, bean.done, ?_⟩
  · rw [run_realize, run_realize, same]
  · exact trans_of (Each Container.Grows) hs (realize_each Container.workAlong_grows
      (create_along Container.workAlong_grows d) absent defined)

/-- The definition of which a look-up of the name would have a bean made: the part of the chain that
starts with its container, and its name there. -/
def definingIn (c : Container) (ancestors : List Container) (name : String) :
    Option (Chain × String) :=
  match c.singletons.get? (c.canonical name), c.definitions.get? (c.canonical name) with
  | some _, _ => none
  | none, some _ => some (⟨c, ancestors⟩, c.canonical name)
  | none, none =>
    match ancestors with
    | [] => none
    | up :: rest => definingIn up rest (c.canonical name)

/-- The definition of which a look-up of the name would have a bean made. -/
def defining (chain : Chain) (name : String) : Option (Chain × String) :=
  definingIn chain.own chain.ancestors name

theorem findByName_endsAlike : ∀ (own : Container) (ancestors : List Container) {name : String},
    (∀ up other origin b, definingIn own ancestors name = some (up, other) →
      up.own.definitions.get? other = some origin → origin.Grows b →
        EndsAlike (GrownFrom up) Resolved.Ended (create d other b) (create e other b)) →
      EndsAlike (GrownFrom ⟨own, ancestors⟩) Ended
        (findByName (create d) ancestors.length name).run
        (findByName (create e) ancestors.length name).run
  | own, ancestors, name, made => by
      intro s hs
      have kept := grown_of_along (findByName_along Container.workAlong_grows
        (create_along Container.workAlong_grows d) ancestors.length name) hs
      have hcanonical : s.own.canonical name = own.canonical name := hs.own.canonical name
      cases there : s.own.singletons.get? (s.own.canonical name) with
      | some bean =>
          refine ⟨?_, ?_, kept⟩ <;> rw [findByName_made _ there]
          · rw [findByName_made _ there]
          · exact ended_ok bean
      | none =>
          have absent := hs.own.absent_before there
          rw [hcanonical] at absent
          cases defined : s.own.definitions.get? (s.own.canonical name) with
          | some b =>
              obtain ⟨origin, horigin, grows⟩ := hs.own.exists_definition defined
              have reached : definingIn own ancestors name =
                  some (⟨own, ancestors⟩, own.canonical name) := by
                rw [definingIn.eq_def, absent, ← hcanonical, horigin]
              rw [hcanonical] at horigin
              have run := realize_endsFrom hs there defined
                (hcanonical ▸ made _ _ origin b reached horigin grows)
              refine ⟨?_, ?_, kept⟩ <;> rw [findByName_defined _ there defined]
              · rw [findByName_defined _ there defined, run.same]
              · exact run.done
          | none =>
              have undefined := hs.own.undefined_before defined
              rw [hcanonical] at undefined
              cases ancestors with
              | nil =>
                  refine ⟨?_, ?_, kept⟩ <;> rw [List.length_nil, findByName_absent there defined]
                  · rw [findByName_absent there defined]
                  · exact ended_error _
              | cons up rest =>
                  have reached : definingIn own (up :: rest) name =
                      definingIn up rest (own.canonical name) := by
                    rw [definingIn.eq_def, absent, undefined]
                  rw [reached] at made
                  have run := inParent_endsAlike (.noSuchBean (own.canonical name))
                    (fun _ _ above => by
                      cases above
                      exact findByName_endsAlike up rest made) s hs
                  refine ⟨?_, ?_, kept⟩ <;>
                    rw [List.length_cons, findByName_above _ there defined, hcanonical]
                  · rw [findByName_above _ there defined, hcanonical, run.same]
                  · exact run.done

/-- A look-up ends with the making of the object it has made, whatever the definition has come to
remember. -/
theorem lookupEnds_of_makings (made : ∀ up other origin b,
    start.defining name = some (up, other) → up.own.definitions.get? other = some origin →
      origin.Grows b → MakingEnds bound up other b) : LookupEnds bound start name := by
  intro d e hd he
  refine Action.endsAlike_get_bind fun s hs => ?_
  rw [← hs.ancestors.length_eq]
  exact findByName_endsAlike start.own start.ancestors
    (fun up other origin b reached defined grows => made up other origin b reached defined grows
      d e hd he) s hs

/-! ### Look-ups by type -/

/-- Every look-up by name ends, in the chain and in the containers above. -/
def LookupsEnd (bound : Nat) (start : Chain) : Prop :=
  ∀ up : Chain, up.containers <:+ start.containers → ∀ name, LookupEnds bound up name

theorem LookupsEnd.above {up : Container} {rest : List Container} (h : LookupsEnd bound start)
    (ancestors : start.ancestors = up :: rest) : LookupsEnd bound ⟨up, rest⟩ := by
  refine fun top htop => h top (htop.trans ?_)
  rw [containers, containers, ancestors]
  exact List.suffix_cons _ _

/-- The name of a reference is what its text evaluates to with the placeholders of the start. -/
theorem value_of_evaluateName (hr : r.collaborators = collaborators make evaluation) {s : Chain}
    (hs : GrownFrom start s) {text name : String}
    (evaluated : ((r.evaluateName text).run s).1 = .ok name) :
    ∃ v, evaluation.evaluate start.own.placeholders text = .ok v ∧ v.text = name := by
  rw [Resolver.evaluateName, Action.run_bind, Resolver.evaluateText, hr] at evaluated
  split at evaluated
  next v s' hrun =>
    obtain ⟨hv, -⟩ := Action.ok_of_ofExcept hrun
    rw [hs.own.placeholders] at hv
    cases evaluated
    exact ⟨v, hv, rfl⟩
  · cases evaluated

/-- A reference to the containers above is followed there, if there are any. -/
theorem run_followReference_above (hr : r.collaborators = collaborators make evaluation)
    (path : ArgPath) {ref : Reference} (inParent : ref.inParent = true) (s : Chain) :
    (r.followReference path ref).run s =
      if s.ancestors.isEmpty then (.error (.error (.noParent (r.site path) ref.text)), s)
      else ((r.lookUpInParent (parentLookups make) ref).mapError
        (r.referenceError path ref)).run s := by
  rw [Resolver.followReference, if_pos inParent, hr]
  obtain ⟨own, _ | ⟨up, rest⟩⟩ := s <;> rfl

section

variable (hd : bound ≤ d) (he : bound ≤ e)
include hd he

theorem resolveNamedByType_endsAlike (h : LookupsEnd bound start) (ty : Ty) :
    EndsAlike (GrownFrom start) Ended (resolveNamedByType (create d) ty).run
      (resolveNamedByType (create e) ty).run := by
  refine Action.endsAlike_get_bind fun s hs => ?_
  split
  · exact Action.endsAlike_fail _ s hs
  · exact Action.endsAlike_bind (h start List.suffix_rfl _ d e hd he)
      (fun _ _ _ _ => Action.endsAlike_pure _) s hs
  · exact Action.endsAlike_fail _ s hs

theorem findByType_endsAlike (ty : Ty) : ∀ (own : Container) (ancestors : List Container),
    LookupsEnd bound ⟨own, ancestors⟩ →
      EndsAlike (GrownFrom ⟨own, ancestors⟩) Ended (findByType (create d) ancestors.length ty).run
        (findByType (create e) ancestors.length ty).run
  | own, ancestors, h => by
      intro s hs
      have here := resolveNamedByType_endsAlike hd he h ty s hs
      have kept := grown_of_along (findByType_along Container.workAlong_grows
        (create_along Container.workAlong_grows d) ancestors.length ty) hs
      by_cases missing : ∃ missing, ((resolveNamedByType (create d) ty).run s).1 =
          .error (.error (.noSuchBeanOfType missing))
      · obtain ⟨missing, hmissing⟩ := missing
        have hrun : (resolveNamedByType (create d) ty).run s =
            (.error (.error (.noSuchBeanOfType missing)), _) := Prod.ext hmissing rfl
        have hrun' := here.same.trans hrun
        cases ancestors with
        | nil =>
            refine ⟨?_, ?_, kept⟩ <;> rw [List.length_nil, findByType_missing hrun]
            · rw [findByType_missing hrun']
            · exact ended_error _
        | cons up rest =>
            have run := inParent_endsAlike (.noSuchBeanOfType missing) (fun _ _ above => by
              cases above
              exact findByType_endsAlike ty up rest (h.above rfl)) _ here.kept
            refine ⟨?_, ?_, kept⟩ <;> rw [List.length_cons, findByType_above _ hrun]
            · rw [findByType_above _ hrun', run.same]
            · exact run.done
      · have settled : ∀ missing, ((resolveNamedByType (create d) ty).run s).1 ≠
            .error (.error (.noSuchBeanOfType missing)) := fun _ h => missing ⟨_, h⟩
        have settled' := settled
        rw [← here.same] at settled'
        refine ⟨?_, ?_, kept⟩ <;> rw [findByType_here _ settled]
        · rw [findByType_here _ settled', here.same]
        · exact here.done.map _

theorem getByType_endsAlike (h : LookupsEnd bound start) (ty : Ty) :
    EndsAlike (GrownFrom start) Ended (getByType (create d) ty).run
      (getByType (create e) ty).run := by
  refine Action.endsAlike_get_bind fun s hs => ?_
  rw [← hs.ancestors.length_eq]
  exact findByType_endsAlike hd he ty start.own start.ancestors h s hs

theorem resolveDependency_endsAlike (h : LookupsEnd bound start) (point : Dependency)
    (requesting : String) :
    EndsAlike (GrownFrom start) Ended (resolveDependency (create d) point requesting).run
      (resolveDependency (create e) point requesting).run := by
  refine Action.endsAlike_get_bind fun s hs => ?_
  refine Action.endsAlike_bind (Action.endsAlike_ofExcept _) (fun _ chosen _ _ => ?_) s hs
  cases chosen with
  | none => exact Action.endsAlike_pure _
  | some name =>
      refine Action.endsAlike_bind (h start List.suffix_rfl name d e hd he) fun _ bean _ _ => ?_
      exact Action.endsAlike_get_bind fun s hs => Action.endsAlike_pure _ s hs

end

end Chain

end Wiring
