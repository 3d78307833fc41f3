import Wiring.Proofs.Container.Attribution
import Wiring.Proofs.Container.Growth

/-!
# Containers — asking the container above for a type

A look-up by type asks the container above when the look-up here reports that no bean has a type.
It does so where no bean here has the type; **and it does so where one has, but cannot be made for
want of a bean of some other type** (`getByType_fallback`): then the error of the bean that is here
is lost, and the container above answers (`getByType_hides_local_failure`).

Only an injection point makes a bean fail that way.  `Chain.pending` is the blueprint a look-up
would make a bean of: if it has no injection point outside nested blueprints, no look-up of the
bean's type is passed on.
-/

namespace Wiring

/-- The injection points of a blueprint's arguments and properties, outside nested blueprints. -/
def BlueprintOf.injectionPoints (b : Blueprint) : List Dependency :=
  Raw.injectionPointsAll b.args ++ Raw.injectionPointsAll (b.properties.map Prod.snd)

namespace Chain

/-- The blueprint of which a container, or one above it, would make the bean of the name. -/
def pendingIn (c : Container) (ancestors : List Container) (name : String) : Option Blueprint :=
  match c.singletons.get? (c.canonical name), c.definitions.get? (c.canonical name) with
  | some _, _ => none
  | none, some b => some b
  | none, none =>
    match ancestors with
    | [] => none
    | up :: rest => pendingIn up rest (c.canonical name)

/-- The blueprint of which a look-up of the name would make the bean. -/
def pending (chain : Chain) (name : String) : Option Blueprint :=
  pendingIn chain.own chain.ancestors name

variable {P : Error → Chain → Prop} {make : Maker}

/-! ### The errors of an object that is made -/

theorem resolveArgs_raises {r : Resolver Chain} : ∀ (i : Nat) (raws : List Raw),
    (∀ root, r.RaisesWithin P root (Raw.injectionPointsAll raws)) → Raises P (resolveArgs r i raws)
  | _, [], _ => raises_return _
  | i, raw :: raws, h => by
      rw [resolveArgs]
      refine raises_bind (Resolver.resolve_raises (.refl _) raw
        ((h _).mono (List.subset_append_left _ _))) fun first s hs => ?_
      cases hfirst : first.outcome with
      | error stop => rw [hfirst] at hs; exact within_error hs
      | ok v =>
          exact raises_bind (resolveArgs_raises (i + 1) raws
            fun root => (h root).mono (List.subset_append_right _ _))
            (fun _ _ hs => within_map _ hs) s

theorem resolveProperties_raises {r : Resolver Chain} : ∀ ps : List (String × Raw),
    (∀ root, r.RaisesWithin P root (Raw.injectionPointsAll (ps.map Prod.snd))) →
      Raises P (resolveProperties r ps)
  | [], _ => raises_return _
  | (name, raw) :: ps, h => by
      rw [resolveProperties]
      refine raises_bind (Resolver.resolve_raises (.refl _) raw
        ((h _).mono (List.subset_append_left _ _))) fun first s hs => ?_
      cases hfirst : first.outcome with
      | error stop => rw [hfirst] at hs; exact within_error hs
      | ok v =>
          exact raises_bind (resolveProperties_raises ps
            fun root => (h root).mono (List.subset_append_right _ _))
            (fun _ _ hs => within_map _ hs) s

theorem instantiate_raises {c : Collaborators Chain} {name : String} {b : Blueprint}
    (h : ∀ root, Resolver.RaisesWithin P
      { collaborators := c, bean := name, blueprint := b } root b.injectionPoints) :
    Raises P (instantiate c name b) := by
  refine raises_bind (resolveArgs_raises 0 b.args fun root =>
    (h root).mono (List.subset_append_left _ _)) fun args s hs => ?_
  cases hargs : args.outcome with
  | error stop => rw [hargs] at hs; exact within_error hs
  | ok argValues =>
      refine raises_bind (resolveProperties_raises b.properties fun root =>
        (h root).mono (List.subset_append_right _ _)) (fun properties s hs => ?_) s
      cases hproperties : properties.outcome with
      | error stop => rw [hproperties] at hs; exact within_error hs
      | ok values => exact trivial

/-- The error is not that no bean has a type. -/
def Specific (e : Error) (_ : Chain) : Prop :=
  ∀ ty, e ≠ .noSuchBeanOfType ty

theorem specific_anywhere {α : Type} {outcome : Except Stop α} {s : Chain}
    (h : Within Specific outcome s) (s' : Chain) : Within Specific outcome s' := by
  match outcome, h with
  | .ok _, _ => exact trivial
  | .error .exhausted, _ => exact trivial
  | .error (.error _), h => exact h

/-- An object without injection points is not refused for want of a bean of a type. -/
theorem create_specific {name : String} {b : Blueprint} (h : b.injectionPoints = []) :
    ∀ depth, Raises Specific (create depth name b)
  | 0 => fun _ => trivial
  | depth + 1 => by
      have within : ∀ root, Resolver.RaisesWithin Specific
          { collaborators := collaborators (create depth), bean := name, blueprint := b } root
            b.injectionPoints := by
        refine fun root => ⟨?_, ?_, ?_⟩
        · -- an error of the resolver's own has a place, which the error for a type has not
          rintro e path here - s ty rfl
          cases here
        · exact evaluateText_raises rfl fun e _ htext ty => htext.ne_noSuchBeanOfType ty
        · intro d hd
          rw [h] at hd
          cases hd
      intro s
      by_cases failing : b.className.getD "" = failingClass
      · rw [run_create_failing failing]
        exact nofun
      · have hvalues := instantiate_raises within (s.beginning name b)
        rw [run_create_sound failing]
        rcases hrun : instantiate (collaborators (create depth)) name b (s.beginning name b) with
          ⟨⟨node, stop | v⟩, mid⟩
        · rw [hrun] at hvalues
          exact within_error hvalues
        · exact trivial

theorem unwrapProduct_specific (factory : Value) (name : String) (postProcess : Bool) :
    (unwrapProduct factory name postProcess).Raises Specific := by
  refine Action.raises_bind (Action.raises_lift _) fun _ => ?_
  split
  · exact Action.raises_fail fun _ => nofun
  · exact Action.raises_pure _
  · exact Action.raises_pure _

theorem realize_specific {name : String} {b : Blueprint} (h : Raises Specific (make name b)) :
    (realize make name b).Raises Specific := by
  have hbean : (makeBean make name b).Raises Specific := by
    have hdefined : (makeDefined make name b).Raises Specific := fun s => specific_anywhere (h s) _
    refine Action.raises_bind hdefined fun made => ?_
    cases made with
    | factory factory => exact unwrapProduct_specific factory name true
    | value v => exact Action.raises_pure _
    | null => exact Action.raises_pure _
  intro s
  rw [run_realize]
  exact specific_anywhere (hbean _) _

/-! ### The errors of a look-up -/

theorem injectionPoints_of_realize {depth : Nat} {name : String} {b : Blueprint} {missing : Ty}
    {chain : Chain} (failed : ((realize (create depth) name b).run chain).1 =
      .error (.error (.noSuchBeanOfType missing))) : b.injectionPoints ≠ [] := by
  intro h
  have hrealize : (realize (create depth) name b).Raises Specific :=
    realize_specific (create_specific h depth)
  have hspecific := hrealize chain
  rw [failed] at hspecific
  exact hspecific missing rfl

/-- A look-up by name reports that no bean has a type only where it makes the bean of a blueprint
with an injection point. -/
theorem pending_of_findByName {depth : Nat} {missing : Ty} :
    ∀ (height : Nat) {chain : Chain} {name : String}, chain.ancestors.length = height →
      ((findByName (create depth) height name).run chain).1 =
        .error (.error (.noSuchBeanOfType missing)) →
      ∃ b, chain.pending name = some b ∧ b.injectionPoints ≠ []
  | height, chain, name, hheight, failed => by
      unfold pending pendingIn
      cases made : chain.own.singletons.get? (chain.own.canonical name) with
      | some bean => rw [findByName_made _ made] at failed; cases failed
      | none =>
          cases defined : chain.own.definitions.get? (chain.own.canonical name) with
          | some b =>
              rw [findByName_defined _ made defined] at failed
              exact ⟨b, rfl, injectionPoints_of_realize failed⟩
          | none =>
              match height with
              | 0 => rw [findByName_absent made defined] at failed; cases failed
              | height + 1 =>
                  obtain ⟨up, rest, above⟩ := List.exists_cons_of_length_eq_add_one hheight
                  rw [findByName_above height made defined, run_inParent_cons _ _ above] at failed
                  rw [above] at hheight ⊢
                  exact pending_of_findByName height (Nat.succ.inj hheight) failed

/-- A look-up by type here reports that no bean has a type only where no bean here has this type, or
where it makes the only bean that has it of a blueprint with an injection point. -/
theorem pending_of_resolveNamedByType {depth : Nat} {ty missing : Ty} {chain : Chain}
    (failed : ((resolveNamedByType (create depth) ty).run chain).1 =
      .error (.error (.noSuchBeanOfType missing))) :
    chain.own.candidates ty = [] ∨ ∃ name b, chain.own.candidates ty = [name] ∧
      chain.pending name = some b ∧ b.injectionPoints ≠ [] := by
  rw [resolveNamedByType, Action.run_get_bind] at failed
  match hnames : chain.own.candidates ty with
  | [] => exact .inl rfl
  | [name] =>
      rw [hnames] at failed
      have failed : ((getByName (create depth) name).run chain).1 =
          .error (.error (.noSuchBeanOfType missing)) := by
        rw [Action.run_bind] at failed
        rcases hrun : (getByName (create depth) name).run chain with ⟨stop | bean, s⟩
        · rw [hrun] at failed
          cases failed
          rfl
        · rw [hrun] at failed
          cases failed
      obtain ⟨b, hb, hpoints⟩ := pending_of_findByName _ rfl failed
      exact .inr ⟨name, b, rfl, hb, hpoints⟩
  | _ :: _ :: _ =>
      rw [hnames] at failed
      cases failed

/-! ### Asking above -/

/-- Where the look-up here reports that no bean has a type, the container above is asked, from what
the look-up has made of the chain. -/
theorem run_getByType_missing {depth : Nat} {ty missing : Ty} {chain s : Chain}
    (h : (resolveNamedByType (create depth) ty).run chain =
      (.error (.error (.noSuchBeanOfType missing)), s)) :
    (getByType (create depth) ty).run chain =
      (inParent (Action.fail (.noSuchBeanOfType missing)) (getByType (create depth) ty)).run s := by
  have hgrows := (resolveNamedByType_along Container.workAlong_grows
    (create_along Container.workAlong_grows depth) ty).of_run h
  -- the height to search is counted before the look-up, the containers above are read after it
  have hlength := hgrows.ancestors.length_eq
  rw [getByType, Action.run_get_bind, hlength]
  cases habove : s.ancestors with
  | nil => rw [List.length_nil, findByType_missing h, run_inParent_nil _ _ habove]; rfl
  | cons up rest =>
      rw [List.length_cons, findByType_above _ h, run_inParent_cons _ _ habove,
        run_inParent_cons _ _ habove]
      rfl

/-- **When a look-up by type asks the container above.**  It does where no bean here has the type.
Where one has, the look-up here is the answer, unless there is a container above and the look-up
here reports that no bean has a type; then the container above is asked all the same.  This happens
only where the one bean here is still to be made, of a blueprint with an injection point. -/
theorem getByType_fallback (depth : Nat) (ty : Ty) (chain : Chain) :
    (chain.own.candidates ty = [] →
      (getByType (create depth) ty).run chain =
        (inParent (Action.fail (.noSuchBeanOfType ty)) (getByType (create depth) ty)).run chain) ∧
    ((chain.ancestors = [] ∨ ∀ missing, ((resolveNamedByType (create depth) ty).run chain).1 ≠
        .error (.error (.noSuchBeanOfType missing))) →
      (getByType (create depth) ty).run chain =
        (((resolveNamedByType (create depth) ty).run chain).1.map NamedBean.bean,
          ((resolveNamedByType (create depth) ty).run chain).2)) ∧
    ∀ missing, chain.own.candidates ty ≠ [] →
      ((resolveNamedByType (create depth) ty).run chain).1 =
        .error (.error (.noSuchBeanOfType missing)) →
      (getByType (create depth) ty).run chain =
        (inParent (Action.fail (.noSuchBeanOfType missing)) (getByType (create depth) ty)).run
          ((resolveNamedByType (create depth) ty).run chain).2 ∧
      ∃ name b, chain.own.candidates ty = [name] ∧ chain.pending name = some b ∧
        b.injectionPoints ≠ [] := by
  refine ⟨?_, ?_, ?_⟩
  · intro none
    refine run_getByType_missing ?_
    rw [resolveNamedByType, Action.run_get_bind, none]
    rfl
  · intro h
    by_cases hmissing : ∃ missing, ((resolveNamedByType (create depth) ty).run chain).1 =
        .error (.error (.noSuchBeanOfType missing))
    · -- without a container above, the error comes out all the same
      obtain ⟨missing, hmissing⟩ := hmissing
      have top := h.resolve_right fun settled => settled missing hmissing
      rw [getByType, Action.run_get_bind, top, List.length_nil,
        findByType_missing (Prod.ext hmissing rfl), hmissing]
      rfl
    · exact findByType_here _ fun missing heq => hmissing ⟨missing, heq⟩
  · intro missing some failed
    refine ⟨run_getByType_missing (Prod.ext failed rfl), ?_⟩
    exact (pending_of_resolveNamedByType failed).resolve_left some

/-- The only bean of the type here needs a bean of another type, which there is not; the container
above has a bean of the type, and answers with it.  The container above asks nobody, and a type no
bean here has is asked for above. -/
theorem getByType_hides_local_failure :
    let b : Blueprint := {
      id := 1, className := some "T", scope := .singleton, dependsOn := [], synthetic := false
      resource := none, args := [.dependency ⟨"x", .named "U", true⟩], properties := [] }
    let top := { id := "top" : Container }.registerSingleton "a" (.object (.external "T" "p"))
    let chain : Chain := ⟨{ id := "main" : Container }.registerBlueprint "b" b, [top]⟩
    let ty : Ty := .named "T"
    chain.own.candidates ty ≠ [] ∧
      ((resolveNamedByType (create 1) ty).run chain).1 =
        .error (.error (.noSuchBeanOfType (.named "U"))) ∧
      ((getByType (create 1) ty).run chain).1.toOption ==
        some (.value (.object (.external "T" "p"))) ∧
      (getByType (create 1) ty).run chain =
        (inParent (Action.fail (.noSuchBeanOfType (.named "U"))) (getByType (create 1) ty)).run
          ((resolveNamedByType (create 1) ty).run chain).2 ∧
      (getByType (create 1) (.named "V")).run chain =
        (inParent (Action.fail (.noSuchBeanOfType (.named "V")))
          (getByType (create 1) (.named "V"))).run chain ∧
      (getByType (create 1) ty).run ⟨top, []⟩ =
        (((resolveNamedByType (create 1) ty).run ⟨top, []⟩).1.map NamedBean.bean,
          ((resolveNamedByType (create 1) ty).run ⟨top, []⟩).2) := by
  intro b top chain ty
  have some : chain.own.candidates ty ≠ [] := by decide +kernel
  have failed : ((resolveNamedByType (create 1) ty).run chain).1 =
      .error (.error (.noSuchBeanOfType (.named "U"))) := Stop.eq_of_error? (by decide +kernel)
  refine ⟨some, failed, by decide +kernel, ?_, ?_, ?_⟩
  · exact ((getByType_fallback 1 ty chain).2.2 (.named "U") some failed).1
  · exact (getByType_fallback 1 (.named "V") chain).1 (by decide +kernel)
  · exact (getByType_fallback 1 ty ⟨top, []⟩).2.1 (.inl rfl)

end Chain

end Wiring
