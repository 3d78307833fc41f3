import Mathlib.Data.List.Forall2
import Wiring.Proofs.Container.FreshName
import Wiring.Proofs.Container.Lookup
import Wiring.Proofs.Container.Making
import Wiring.Proofs.Resolver.Along

/-!
# Containers — along a relation

Looking up and making beans changes containers in a few ways only.  `Container.WorkAlong Q` says
that each of them leads along `Q`, and `Chain.Each Q` relates two chains container by container.
A factory is unwrapped where it has just been made (`Container.Unwraps`); this may be all that the
law for it is about.

**What the changes keep, the work keeps**: for every relation of that kind, all look-ups
(`getByName_along`, `getByType_along`, `resolveNamedByType_along`, `resolveDependency_along`), the
making of objects at every depth (`create_along`) and every resolver of the chain
(`goesAlong`) lead from a chain to related ones, also when they stop half-way.
-/

namespace Wiring

/-- A factory has just been made of the blueprint in the container and is about to be unwrapped, for
which the entry will be logged.  The bean of a definition is post-processed; an object inside
another one is so unless its blueprint is synthetic. -/
inductive Container.Unwraps (c : Container) : String × Bool → Blueprint → Prop where
  | inner {depth : Nat} {name : String} {b node : Blueprint} {factory : Value}
    {start final : Chain}
    (made : Chain.create depth name b start = (⟨node, .ok (.factory factory)⟩, final))
    (now : c = final.own) : c.Unwraps (name, !b.synthetic) b
  | defined {depth : Nat} {name : String} {b node : Blueprint} {factory : Value}
    {start final : Chain} (defined : start.own.definitions.get? name = some b)
    (made : Chain.create depth name b start = (⟨node, .ok (.factory factory)⟩, final))
    (now : c = final.own.learn name node) : c.Unwraps (name, true) b

/-- The changes that looking up and making beans consists of lead along `Q`.  If `free`, factories
may be unwrapped anywhere. -/
structure Container.WorkAlong (Q : Container → Container → Prop) (free : Prop := True) :
    Prop where
  registerDependent (c : Container) (a b : String) : Q c (c.registerDependent a b)
  registerContained (c : Container) (inner owner : String) : Q c (c.registerContained inner owner)
  /-- A name is granted and taken. -/
  claim (c : Container) (name owner : String) (free : c.isNameInUse name = false) :
    Q c ((c.grant name).registerContained name owner)
  begin (c : Container) (creation : Creation) :
    Q c { c with creations := c.creations ++ [creation] }
  newObject (c : Container) (n : Nat) : Q c { c with built := n }
  unwrap (c : Container) (entry : String × Bool) (h : free ∨ ∃ b, c.Unwraps entry b) :
    Q c { c with unwrapped := c.unwrapped ++ [entry] }
  learn (c : Container) (name : String) (left : Blueprint) : Q c (c.learn name left)
  /-- A bean that is there is handed out. -/
  found (c : Container) {name : String} {bean : Managed}
    (present : c.singletons.get? name = some bean) : Q c (c.note (.found name bean))
  /-- The making of a bean is over; its name had none when the making began. -/
  conclude {c c' : Container} {name : String} {b : Blueprint} {bean : Option Managed}
    (h : Q (c.note (.began name)) c') (absent : c.singletons.get? name = none)
    (defined : c.definitions.get? name = some b) (gives : ∀ m ∈ bean, b.Gives m) :
    Q c (c'.conclude name b bean)
  /-- An object is made. -/
  made {depth : Nat} {name : String} {b node : Blueprint} {bean : Managed} {start final : Chain}
    {c : Container} (h : Chain.create depth name b start = (⟨node, .ok bean⟩, final))
    (noted : final.own = c.note (.made name b)) : Q c final.own

section Optional

variable {α : Type} {R : α → α → Prop}

theorem optional_refl (refl : ∀ a, R a a) : ∀ x : Option α, Option.Rel R x x
  | none => .none
  | some a => .some (refl a)

theorem optional_trans (trans : ∀ {a b c}, R a b → R b c → R a c) {x y z : Option α}
    (h : Option.Rel R x y) (h' : Option.Rel R y z) : Option.Rel R x z := by
  cases h with
  | none => exact h'
  | some h =>
      cases h' with
      | some h' => exact .some (trans h h')

end Optional

namespace Chain

/-- Container by container, the second chain is related to the first. -/
structure Each (Q : Container → Container → Prop) (chain chain' : Chain) : Prop where
  own : Q chain.own chain'.own
  ancestors : List.Forall₂ Q chain.ancestors chain'.ancestors

theorem Each.imp {Q R : Container → Container → Prop} {chain chain' : Chain}
    (h : Each Q chain chain') (himp : ∀ {c c'}, Q c c' → R c c') : Each R chain chain' :=
  ⟨himp h.own, h.ancestors.imp fun _ _ hQ => himp hQ⟩

variable {Q : Container → Container → Prop} {free : Prop}

theorem forall₂_trans {α : Type} {R : α → α → Prop} [IsTrans α R] : ∀ {as bs cs : List α},
    List.Forall₂ R as bs → List.Forall₂ R bs cs → List.Forall₂ R as cs
  | _, _, _, .nil, .nil => .nil
  | _, _, _, .cons h hs, .cons h' hs' => .cons (trans_of R h h') (forall₂_trans hs hs')

/-- What has become of containers is related to what they were. -/
theorem related_of_mem {cs cs' : List Container} (h : List.Forall₂ Q cs cs') {c' : Container}
    (hc' : c' ∈ cs') : ∃ c ∈ cs, Q c c' := by
  induction h with
  | nil => cases hc'
  | cons hQ _ ih =>
      rcases List.mem_cons.1 hc' with rfl | hc'
      · exact ⟨_, List.mem_cons_self, hQ⟩
      · obtain ⟨c, hc, hcQ⟩ := ih hc'
        exact ⟨c, List.mem_cons_of_mem _ hc, hcQ⟩

/-- Each of the containers has become one that is related to it. -/
theorem becomes_of_mem {cs cs' : List Container} (h : List.Forall₂ Q cs cs') {c : Container}
    (hc : c ∈ cs) : ∃ c' ∈ cs', Q c c' :=
  related_of_mem (Q := flip Q) (List.Forall₂.flip (R := flip Q) h) hc

instance [IsPreorder Container Q] : IsPreorder Chain (Each Q) where
  refl chain := ⟨refl_of Q chain.own, List.forall₂_refl chain.ancestors⟩
  trans _ _ _ h h' := ⟨trans_of Q h.own h'.own, forall₂_trans h.ancestors h'.ancestors⟩

variable [IsPreorder Container Q]

/-- A change of the own container. -/
theorem along_modifyOwn {f : Container → Container} (h : ∀ c, Q c (f c)) :
    Along (Each Q) (modify (modifyOwn f) : StateM Chain Unit) :=
  along_modify fun chain => ⟨h chain.own, List.forall₂_refl chain.ancestors⟩

/-- Work on the containers above leaves the own container as it is. -/
theorem inParent_along {α : Type} {orElse x : Action Chain α} (ho : Along (Each Q) orElse.run)
    (hx : Along (Each Q) x.run) : Along (Each Q) (inParent orElse x).run := by
  rintro ⟨own, ancestors⟩
  cases ancestors with
  | nil => exact ho ⟨own, []⟩
  | cons up rest =>
      obtain ⟨hup, hrest⟩ := hx ⟨up, rest⟩
      exact ⟨refl_of Q own, .cons hup hrest⟩

/-- Of the chain, the unwrapping of a factory changes the log only. -/
theorem unwrapProduct_state (factory : Value) (name : String) (postProcess : Bool) (s : Chain) :
    ((unwrapProduct factory name postProcess).run s).2 =
      s.modifyOwn fun c => { c with unwrapped := c.unwrapped ++ [(name, postProcess)] } := by
  unfold unwrapProduct
  rcases factory.object?.bind fun o => o.property? "product" with _ | product
  · rfl
  · cases product <;> rfl

theorem unwrapProduct_along (hQ : Container.WorkAlong Q) (factory : Value) (name : String)
    (postProcess : Bool) : Along (Each Q) (unwrapProduct factory name postProcess).run := by
  intro s
  rw [unwrapProduct_state]
  exact along_modifyOwn (fun c => hQ.unwrap c _ (.inl trivial)) s

/-- A factory that has just been made is unwrapped along the relation. -/
theorem unwrapProduct_each (hQ : Container.WorkAlong Q free) (factory : Value) {name : String}
    {postProcess : Bool} {s : Chain} {b : Blueprint} (h : s.own.Unwraps (name, postProcess) b) :
    Each Q s ((unwrapProduct factory name postProcess).run s).2 := by
  rw [unwrapProduct_state]
  exact ⟨hQ.unwrap s.own _ (.inr ⟨b, h⟩), List.forall₂_refl s.ancestors⟩

/-! ### Look-ups -/

/-- Making objects leads along the relation, up to some depth. -/
structure MakesAlong (Q : Container → Container → Prop) (make : Maker) : Prop where
  along (name : String) (b : Blueprint) : Along (Each Q) (make name b)
  bounded : ∃ depth, make = create depth

omit [IsPreorder Container Q] in
/-- What is made is an object of the class that is asked for. -/
theorem MakesAlong.makes {make : Maker} (hm : MakesAlong Q make) {name : String} {b : Blueprint}
    {chain : Chain} {bean : Managed} (h : (make name b chain).1.outcome = .ok bean) :
    b.Makes bean := by
  obtain ⟨depth, rfl⟩ := hm.bounded
  exact create_makes h

instance (make : Maker) :
    CoeFun (MakesAlong Q make) fun _ => ∀ name b, Along (Each Q) (make name b) :=
  ⟨MakesAlong.along⟩

variable {make : Maker}

theorem makeDefined_along (hQ : Container.WorkAlong Q free) (hm : MakesAlong Q make) (name : String)
    (b : Blueprint) : Along (Each Q) (makeDefined make name b).run :=
  along_bind (hm name b) fun made =>
    along_bind (along_modifyOwn fun c => hQ.learn c name made.node) fun _ => along_pure _

/-- The bean of a definition is made along the relation, and unwrapped if it is a factory. -/
theorem makeBean_each (hQ : Container.WorkAlong Q free) (hm : MakesAlong Q make) {name : String}
    {b : Blueprint} {chain : Chain} (defined : chain.own.definitions.get? name = some b) :
    Each Q chain ((makeBean make name b).run chain).2 := by
  obtain ⟨depth, rfl⟩ := hm.bounded
  rcases hmade : create depth name b chain with ⟨⟨node, outcome⟩, final⟩
  have hdefined : (makeDefined (create depth) name b).run chain =
      (outcome, final.modifyOwn fun c => c.learn name node) := by
    change ((create depth name b chain).1.outcome, (create depth name b chain).2.modifyOwn fun c =>
      c.learn name (create depth name b chain).1.node) = _
    rw [hmade]
  have learned := (makeDefined_along hQ hm name b).of_run hdefined
  rw [makeBean, Action.run_bind, hdefined]
  cases outcome with
  | error stop => exact learned
  | ok bean =>
      cases bean with
      | value v => exact learned
      | null => exact learned
      | factory factory =>
          exact trans_of (Each Q) learned
            (unwrapProduct_each hQ factory (.defined defined hmade rfl))

/-- The bean made of a definition is kept under a name that had none at the start. -/
theorem realize_each (hQ : Container.WorkAlong Q free) (hm : MakesAlong Q make) {chain : Chain}
    {name : String} {b : Blueprint} (absent : chain.own.singletons.get? name = none)
    (defined : chain.own.definitions.get? name = some b) :
    Each Q chain ((realize make name b).run chain).2 := by
  have hbean : Each Q (chain.modifyOwn fun c => c.note (.began name))
    ((makeBean make name b).run (chain.modifyOwn fun c => c.note (.began name))).2 :=
      makeBean_each hQ hm defined
  rw [run_realize]
  -- the work in between may have put a bean there: only its absence at the start is known
  exact ⟨hQ.conclude hbean.own absent defined fun bean hgiven =>
    makeBean_gives hm.makes (ok_of_toOption hgiven), hbean.ancestors⟩

theorem findByName_along (hQ : Container.WorkAlong Q free) (hm : MakesAlong Q make) :
    ∀ (height : Nat) (name : String), Along (Each Q) (findByName make height name).run
  | height, name => by
      intro chain
      cases made : chain.own.singletons.get? (chain.own.canonical name) with
      | some bean =>
          rw [findByName_made _ made]
          exact ⟨hQ.found chain.own made, List.forall₂_refl chain.ancestors⟩
      | none =>
          cases defined : chain.own.definitions.get? (chain.own.canonical name) with
          | some b =>
              rw [findByName_defined _ made defined]
              exact realize_each hQ hm made defined
          | none =>
              match height with
              | 0 => rw [findByName_absent made defined]; exact refl_of (Each Q) chain
              | height + 1 =>
                  rw [findByName_above height made defined]
                  have above := findByName_along hQ hm height (chain.own.canonical name)
                  exact inParent_along (Action.along_fail _) above chain

theorem getByName_along (hQ : Container.WorkAlong Q free) (hm : MakesAlong Q make) (name : String) :
    Along (Each Q) (getByName make name).run :=
  Action.along_bind (Action.along_lift along_get) fun _ => findByName_along hQ hm _ name

theorem resolveNamedByType_along (hQ : Container.WorkAlong Q free) (hm : MakesAlong Q make)
    (ty : Ty) : Along (Each Q) (resolveNamedByType make ty).run := by
  refine Action.along_bind (Action.along_lift along_get) fun chain => ?_
  split
  · exact Action.along_fail _
  · exact Action.along_bind (getByName_along hQ hm _) fun _ => Action.along_pure _
  · exact Action.along_fail _

theorem findByType_along (hQ : Container.WorkAlong Q free) (hm : MakesAlong Q make) :
    ∀ (height : Nat) (ty : Ty), Along (Each Q) (findByType make height ty).run
  | height, ty => by
      intro chain
      have hlocal := resolveNamedByType_along hQ hm ty chain
      by_cases h : ∃ missing, ((resolveNamedByType make ty).run chain).1 =
          .error (.error (.noSuchBeanOfType missing))
      · obtain ⟨missing, h⟩ := h
        match height with
        | 0 => rwa [findByType_missing (Prod.ext h rfl)]
        | height + 1 =>
            rw [findByType_above height (Prod.ext h rfl)]
            have above := inParent_along (Action.along_fail (.noSuchBeanOfType missing))
              (findByType_along hQ hm height ty)
            exact trans_of (Each Q) hlocal (above _)
      · rwa [findByType_here _ fun missing hmissing => h ⟨missing, hmissing⟩]

theorem getByType_along (hQ : Container.WorkAlong Q free) (hm : MakesAlong Q make) (ty : Ty) :
    Along (Each Q) (getByType make ty).run :=
  Action.along_bind (Action.along_lift along_get) fun _ => findByType_along hQ hm _ ty

theorem resolveDependency_along (hQ : Container.WorkAlong Q free) (hm : MakesAlong Q make)
    (d : Dependency) (requesting : String) :
    Along (Each Q) (resolveDependency make d requesting).run := by
  refine Action.along_bind (Action.along_lift along_get) fun chain => ?_
  refine Action.along_bind (Action.along_ofExcept _) fun chosen => ?_
  cases chosen with
  | none => exact Action.along_pure _
  | some name =>
      refine Action.along_bind (getByName_along hQ hm name) fun bean => ?_
      exact Action.along_bind (Action.along_lift along_get) fun _ => Action.along_pure _

/-! ### Resolvers of the chain -/

/-- Whatever the state, the parent that is handed out looks up in the containers above. -/
theorem eq_parentLookups {s : Chain} {up : Lookup Chain} (h : (parent make s).1 = some up) :
    up = parentLookups make := by
  change (if s.ancestors.isEmpty then none else some (parentLookups make)) = some up at h
  split at h
  · cases h
  · exact (Option.some.inj h).symm

theorem claimName_along (hQ : Container.WorkAlong Q free) {evaluation : Evaluation}
    {r : Resolver Chain} (hr : r.collaborators = collaborators make evaluation)
    (proposed : String) : Along (Each Q) (r.claimName proposed).run := by
  intro chain
  obtain ⟨k, hk, hrun⟩ := run_freshName hr chain proposed
  rw [Resolver.claimName, Action.run_bind, hrun, hr]
  exact ⟨hQ.claim chain.own _ r.bean hk.free, List.forall₂_refl chain.ancestors⟩

theorem ok_of_createObject {evaluation : Evaluation} {name : String} {b : Blueprint}
    {bean : Managed} {s s' : Chain}
    (h : ((collaborators make evaluation).createObject name b).run s = (.ok bean, s')) :
    ∃ node, make name b s = (⟨node, .ok bean⟩, s') := by
  rcases hrun : make name b s with ⟨⟨node, outcome⟩, mid⟩
  have hpair : ((make name b s).1.outcome, (make name b s).2) = (.ok bean, s') := h
  rw [hrun] at hpair
  cases hpair
  exact ⟨node, rfl⟩

/-- **What the changes of containers keep, every resolver of the chain keeps.** -/
theorem goesAlong (hQ : Container.WorkAlong Q free) (hm : MakesAlong Q make)
    {evaluation : Evaluation} {r : Resolver Chain}
    (hr : r.collaborators = collaborators make evaluation) :
    r.GoesAlong (Each Q) := by
  obtain ⟨c, bean, blueprint, naming⟩ := r
  obtain rfl : c = collaborators make evaluation := hr
  exact {
    containsBean := fun _ => along_bind along_get fun _ => along_pure _
    getByName := getByName_along hQ hm
    parent := along_bind along_get fun _ => along_pure _
    parentByName := fun name h => by
      rw [eq_parentLookups h]
      exact inParent_along (Action.along_fail _) (getByName_along hQ hm name)
    parentByType := fun ty h => by
      rw [eq_parentLookups h]
      exact inParent_along (Action.along_fail _) (getByType_along hQ hm ty)
    resolveNamedByType := resolveNamedByType_along hQ hm
    resolveDependency := fun d => resolveDependency_along hQ hm d bean
    registerDependent := fun a b => along_modifyOwn fun c => hQ.registerDependent c a b
    registerContained := fun inner => along_modifyOwn fun c => hQ.registerContained c inner bean
    claimName := claimName_along hQ rfl
    mergeBlueprint := fun _ _ => Action.along_ofExcept _
    createObject := fun name b => along_bind (hm name b) fun _ => along_pure _
    unwrapProduct := fun {_ _ factory _ _} made => by
      obtain ⟨depth, rfl⟩ := hm.bounded
      obtain ⟨node, hmade⟩ := ok_of_createObject made
      exact unwrapProduct_each hQ factory (.inner hmade rfl)
    loadType := fun _ =>
      Action.along_bind (Action.along_lift along_get) fun _ => Action.along_ofExcept _
    evaluate := fun _ =>
      Action.along_bind (Action.along_lift along_get) fun _ => Action.along_ofExcept _
    coerce := fun _ _ => Action.along_ofExcept _ }

/-! ### Making objects -/

theorem resolveArgs_along {r : Resolver Chain} (h : r.GoesAlong (Each Q)) :
    ∀ (i : Nat) (raws : List Raw), Along (Each Q) (resolveArgs r i raws)
  | _, [] => along_pure _
  | i, raw :: raws => by
      rw [resolveArgs]
      refine along_bind (Resolver.resolve_along h _ raw) fun first => ?_
      cases first.outcome with
      | error stop => exact along_pure _
      | ok v => exact along_bind (resolveArgs_along h (i + 1) raws) fun _ => along_pure _

theorem resolveProperties_along {r : Resolver Chain} (h : r.GoesAlong (Each Q)) :
    ∀ ps : List (String × Raw), Along (Each Q) (resolveProperties r ps)
  | [] => along_pure _
  | (name, raw) :: ps => by
      rw [resolveProperties]
      refine along_bind (Resolver.resolve_along h _ raw) fun first => ?_
      cases first.outcome with
      | error stop => exact along_pure _
      | ok v => exact along_bind (resolveProperties_along h ps) fun _ => along_pure _

theorem newObject_along (hQ : Container.WorkAlong Q free) (name className : String)
    (args : List Value) (properties : List (String × Value)) :
    Along (Each Q) (newObject name className args properties) := fun chain =>
  ⟨hQ.newObject chain.own (chain.own.built + 1), List.forall₂_refl chain.ancestors⟩

theorem instantiate_along (hQ : Container.WorkAlong Q free) (hm : MakesAlong Q make) (name : String)
    (b : Blueprint) : Along (Each Q) (instantiate (collaborators make) name b) := by
  have h : Resolver.GoesAlong (Each Q)
      { collaborators := collaborators make, bean := name, blueprint := b } := goesAlong hQ hm rfl
  refine along_bind (resolveArgs_along h 0 b.args) fun args => ?_
  cases args.outcome with
  | error stop => exact along_pure _
  | ok argValues =>
      refine along_bind (resolveProperties_along h b.properties) fun properties => ?_
      cases properties.outcome with
      | error stop => exact along_pure _
      | ok values => exact along_bind (newObject_along hQ _ _ _ _) fun _ => along_pure _

theorem each_beginning (hQ : Container.WorkAlong Q free) (name : String) (b : Blueprint)
    (chain : Chain) : Each Q chain (chain.beginning name b) :=
  along_modifyOwn (fun c => hQ.begin c _) chain

/-- With the objects inside it made along the relation, the making of an object leads along it from
where it is begun. -/
theorem begun_along (hQ : Container.WorkAlong Q free) {depth : Nat}
    (hm : MakesAlong Q (create depth)) (name : String) (b : Blueprint) (chain : Chain) :
    Each Q (chain.beginning name b) (create (depth + 1) name b chain).2 := by
  by_cases failing : b.className.getD "" = failingClass
  · rw [run_create_failing failing]
    exact refl_of (Each Q) _
  · have hvalues := instantiate_along hQ hm name b (chain.beginning name b)
    rcases hrun : instantiate (collaborators (create depth)) name b (chain.beginning name b) with
      ⟨⟨node, stop | v⟩, mid⟩
    · rw [hrun] at hvalues
      rw [run_create_stopped failing hrun]
      exact hvalues
    · rw [hrun] at hvalues
      have hmade := run_create_made failing hrun
      rw [hmade]
      exact ⟨trans_of Q hvalues.own (hQ.made hmade rfl), hvalues.ancestors⟩

/-- With the objects inside it made along the relation, an object is made along it. -/
theorem create_succ_along (hQ : Container.WorkAlong Q free) {depth : Nat}
    (hm : MakesAlong Q (create depth)) (name : String) (b : Blueprint) :
    Along (Each Q) (create (depth + 1) name b) := fun chain =>
  trans_of (Each Q) (each_beginning hQ name b chain) (begun_along hQ hm name b chain)

/-- **What the changes of containers keep, the making of objects keeps**, however deep it goes. -/
theorem create_along (hQ : Container.WorkAlong Q free) : ∀ depth, MakesAlong Q (create depth)
  | 0 => ⟨fun _ _ => along_pure _, 0, rfl⟩
  | depth + 1 => ⟨create_succ_along hQ (create_along hQ depth), depth + 1, rfl⟩

end Chain

end Wiring
