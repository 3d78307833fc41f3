import Wiring.Proofs.Container.Along
import Wiring.Session.Step

/-!
# Sessions — along a relation

A session works on its containers through chains and by registrations.  `Container.StepAlong Q`
says that each change of a container in a session leads along `Q`, and `Session.Keeps Q` relates two
sessions container by container, whatever else is different.

**What the changes of containers keep, every step keeps** (`step_keeps`), whatever comes of it,
**and every script** (`run_keeps`).
-/

namespace Wiring

/-- The changes of containers that a session consists of lead along `Q`.  Unless `free`, the session
does not order the unwrapping of a factory. -/
structure Container.StepAlong (Q : Container → Container → Prop) (free : Prop := True) : Prop
    extends Container.WorkAlong Q free where
  id {c c' : Container} (h : Q c c') : c'.id = c.id
  registerBlueprint (c : Container) (name : String) (b : Blueprint) :
    Q c (c.registerBlueprint name b)
  registerSingleton (c : Container) (name : String) (v : Value) : Q c (c.registerSingleton name v)
  registerNull (c : Container) (name : String) : Q c (c.registerNull name)
  registerType (c : Container) (name : String) : Q c (c.registerType name)
  registerAlias (c : Container) (byname name : String) : Q c (c.registerAlias byname name)
  reportStaleCandidate (c : Container) (name : String) : Q c (c.reportStaleCandidate name)
  definePlaceholder (c : Container) (key : String) (v : Value) : Q c (c.definePlaceholder key v)
  /-- What is remembered in a cell is remembered in the definitions. -/
  refresh (c : Container) (cell : Nat) (new : Blueprint) :
    Q c { c with definitions := c.definitions.map (Raw.refreshBlueprint cell new) }

/-- The step orders the unwrapping of a factory. -/
def Step.isUnwrap : Step → Bool
  | .unwrap _ _ _ => true
  | _ => false

/-- The container of the second member is related to that of the first. -/
def Member.Keeps (Q : Container → Container → Prop) (m m' : Member) : Prop :=
  Q m.container m'.container

namespace Session

variable {Q : Container → Container → Prop} {free : Prop}

/-- Container by container, the second session is related to the first. -/
def Keeps (Q : Container → Container → Prop) (s s' : Session) : Prop :=
  ∀ id, Option.Rel (Member.Keeps Q) (s.member? id) (s'.member? id)

theorem Keeps.later {s s' : Session} (h : Keeps Q s s') {id : String} {m : Member}
    (hm : s.member? id = some m) :
    ∃ m', s'.member? id = some m' ∧ Q m.container m'.container := by
  have hid := h id
  rw [hm] at hid
  cases hm' : s'.member? id with
  | none => rw [hm'] at hid; cases hid
  | some m' =>
      rw [hm'] at hid
      cases hid with
      | some hQ => exact ⟨m', rfl, hQ⟩

theorem Keeps.earlier {s s' : Session} (h : Keeps Q s s') {id : String} {m' : Member}
    (hm' : s'.member? id = some m') :
    ∃ m, s.member? id = some m ∧ Q m.container m'.container := by
  have hid := h id
  rw [hm'] at hid
  cases hm : s.member? id with
  | none => rw [hm] at hid; cases hid
  | some m =>
      rw [hm] at hid
      cases hid with
      | some hQ => exact ⟨m, rfl, hQ⟩

instance [IsPreorder Container Q] : IsPreorder Session (Keeps Q) where
  refl _ _ := optional_refl (R := Member.Keeps Q) (fun m => refl_of Q m.container) _
  trans _ _ _ h h' id :=
    optional_trans (R := Member.Keeps Q) (fun hlm hmn => trans_of Q hlm hmn) (h id) (h' id)

/-! ### The containers of a chain -/

theorem member?_id {s : Session} {id : String} {m : Member} (h : s.member? id = some m) :
    m.container.id = id := by
  have hid := List.find?_some h
  exact eq_of_beq hid

/-- The containers upwards of one are those of the session. -/
theorem mem_upwards {s : Session} {c : Container} :
    ∀ {n : Nat} {start : Option String}, c ∈ s.upwards n start →
      ∃ m, s.member? c.id = some m ∧ m.container = c
  | 0, _, h => by cases h
  | _ + 1, none, h => by cases h
  | n + 1, some id, h => by
      rw [upwards] at h
      cases hm : s.member? id with
      | none => rw [hm] at h; cases h
      | some m =>
          rw [hm] at h
          rcases List.mem_cons.1 h with rfl | h
          · exact ⟨m, by rw [member?_id hm, hm], rfl⟩
          · exact mem_upwards h

/-- A container of a chain is the session's, if the session has one of its identity. -/
theorem eq_of_mem_chain {s : Session} {id : String} {c : Container} {m : Member}
    (h : c ∈ (s.chain id).own :: (s.chain id).ancestors) (hm : s.member? c.id = some m) :
    m.container = c := by
  rw [chain] at h
  cases hup : s.upwards s.members.length (some id) with
  | cons own ancestors =>
      rw [hup] at h
      obtain ⟨m', hm', rfl⟩ := mem_upwards (hup ▸ h)
      rw [hm] at hm'
      rw [Option.some.inj hm']
  | nil =>
      -- the chain stands for a container the session does not have
      rw [hup] at h
      obtain rfl := List.mem_singleton.1 h
      have hpos : s.members.length ≠ 0 := fun h0 => by
        rw [member?, List.length_eq_zero_iff.1 h0] at hm
        cases hm
      obtain ⟨n, hn⟩ := Nat.exists_eq_succ_of_ne_zero hpos
      rw [hn, upwards, show s.member? id = some m from hm] at hup
      cases hup

/-- The chain of a container of the session starts with it. -/
theorem own_chain {s : Session} {id : String} {m : Member} (h : s.member? id = some m) :
    (s.chain id).own = m.container := by
  have hpos : s.members.length ≠ 0 := fun h0 => by
    rw [member?, List.length_eq_zero_iff.1 h0] at h
    cases h
  obtain ⟨n, hn⟩ := Nat.exists_eq_succ_of_ne_zero hpos
  rw [chain, hn, upwards, h]

theorem upwards_of_members {s s' : Session} (members : s'.members = s.members) :
    ∀ (n : Nat) (start : Option String), s'.upwards n start = s.upwards n start
  | 0, _ => rfl
  | _ + 1, none => rfl
  | n + 1, some id => by
      rw [upwards, upwards, member?, member?, members]
      split
      · rw [upwards_of_members members n]
      · rfl

/-- A session's chains are made up of its members. -/
theorem chain_of_members {s s' : Session} (members : s'.members = s.members) (id : String) :
    s'.chain id = s.chain id := by
  rw [chain, chain, upwards_of_members members, members]

/-- A container the session does not have is a new one. -/
theorem chain_absent {s : Session} {id : String} (h : s.member? id = none) :
    s.chain id = ⟨{ id }, []⟩ := by
  rw [chain]
  cases s.members.length with
  | zero => rfl
  | succ n => rw [upwards, h]

/-! ### Changes of the members -/

/-- A change of every member that keeps its container's identity. -/
theorem member?_of_members {s s' : Session} {f : Member → Member}
    (members : s'.members = s.members.map f) (id : ∀ m, (f m).container.id = m.container.id)
    (i : String) : s'.member? i = (s.member? i).map f := by
  rw [member?, members, List.find?_map]
  congr 2
  funext m
  rw [Function.comp_apply, id]

theorem keeps_of_members {s s' : Session} {f : Member → Member}
    (members : s'.members = s.members.map f) (id : ∀ m, (f m).container.id = m.container.id)
    (h : ∀ m, s.member? m.container.id = some m → Q m.container (f m).container) :
    Keeps Q s s' := by
  intro i
  rw [member?_of_members members id]
  cases hm : s.member? i with
  | none => exact .none
  | some m => exact .some (h m (member?_id hm ▸ hm))

theorem refresh_keeps (hQ : Container.StepAlong Q free) (cell : Nat) (new : Blueprint)
    (s : Session) :
    Keeps Q s (s.refresh cell new) :=
  keeps_of_members rfl (fun _ => rfl) fun m _ => hQ.refresh m.container cell new

/-- What becomes of a member when a chain is stored. -/
def stored (chain : Chain) (m : Member) : Member :=
  match (chain.own :: chain.ancestors).find? fun c => c.id == m.container.id with
  | some c => { m with container := c }
  | none => m

theorem stored_id (chain : Chain) (m : Member) :
    (stored chain m).container.id = m.container.id := by
  rw [stored]
  split
  next c hc =>
    have hid := List.find?_some hc
    exact eq_of_beq hid
  next => rfl

variable [IsPreorder Container Q]

/-- The container a chain starts with is related to the one it started with. -/
theorem own_keeps {s s' : Session} (h : Keeps Q s s') (id : String) :
    Q (s.chain id).own (s'.chain id).own := by
  cases hm : s.member? id with
  | some m =>
      obtain ⟨m', hm', hQ⟩ := h.later hm
      rw [own_chain hm, own_chain hm']
      exact hQ
  | none =>
      cases hm' : s'.member? id with
      | some m' =>
          obtain ⟨m, hsome, -⟩ := h.earlier hm'
          rw [hm] at hsome
          cases hsome
      | none =>
          rw [chain_absent hm, chain_absent hm']
          exact refl_of Q _

theorem store_keeps (hQ : Container.StepAlong Q free) {s : Session} {id : String} {chain : Chain}
    (h : Chain.Each Q (s.chain id) chain) : Keeps Q s (s.store chain) := by
  refine keeps_of_members (f := stored chain) rfl (stored_id chain) fun m hm => ?_
  rw [stored]
  split
  -- the container stored is the first of its identity in the chain, related to the first there
  next c' hc' =>
    obtain ⟨c, hc, hcQ⟩ :=
      Chain.related_of_mem (.cons h.own h.ancestors) (List.mem_of_find?_eq_some hc')
    have hid' := List.find?_some hc'
    have hid : c.id = m.container.id := (hQ.id hcQ).symm.trans (eq_of_beq hid')
    rw [eq_of_mem_chain hc (hid ▸ hm)]
    exact hcQ
  next => exact refl_of Q m.container

theorem inChain_keeps (hQ : Container.StepAlong Q free) {α : Type} {x : Action Chain α}
    (hx : Along (Chain.Each Q) x.run) (id : String) : Along (Keeps Q) (inChain id x).run :=
  fun s => store_keeps hQ (hx (s.chain id))

theorem inContainer_keeps (hQ : Container.StepAlong Q free) {f : Container → Container}
    (h : ∀ c, Q c (f c)) (id : String) : Along (Keeps Q) (inContainer id f).run :=
  inChain_keeps hQ (x := modify (Chain.modifyOwn f)) (Chain.along_modifyOwn h) id

theorem editBound_keeps (hQ : Container.StepAlong Q free) (name : String) (path : List Nat)
    (f : Raw → Raw) (s : Session) : Keeps Q s (s.editBound name path f) := by
  rw [editBound]
  split
  · exact refresh_keeps hQ _ _ (s.bind name _)
  · exact refl_of (Keeps Q) s

/-! ### Steps -/

theorem maker_along (hQ : Container.StepAlong Q free) : Chain.MakesAlong Q maker :=
  Chain.create_along hQ.toWorkAlong depthLimit

/-- An object made by order of the session is made like one inside another. -/
theorem build_maker_along (hQ : Container.StepAlong Q free) (name : String) (b : Blueprint) :
    Along (Chain.Each Q) (Chain.build maker name b) :=
  Chain.create_succ_along hQ.toWorkAlong (maker_along hQ) name b

theorem resolve_keeps (hQ : Container.StepAlong Q free) (container : String) (path : ArgPath) :
    ∀ source : Source, Along (Keeps Q) (resolve container path source).run := by
  have hr : ∀ s : Session, s.resolver.GoesAlong (Chain.Each Q) := fun s =>
    Chain.goesAlong hQ.toWorkAlong (maker_along hQ) rfl
  intro source
  cases source with
  | given raw =>
      refine Action.along_bind (Action.along_lift along_get) fun s => ?_
      exact inChain_keeps hQ
        (along_bind (Resolver.resolve_along (hr s) path raw) fun _ => along_pure _) container
  | bound name =>
      refine Action.along_bind (Action.along_lift along_get) fun s => ?_
      refine Action.along_bind (inChain_keeps hQ
        (Action.along_lift (Resolver.resolve_along (hr s) path _)) container) fun resolved => ?_
      exact Action.along_bind
        (Action.along_lift (along_modify fun s => refl_of (Keeps Q) s)) fun _ => along_pure _

theorem create_keeps (hQ : Container.StepAlong Q free) (container name : String) (cell : Nat)
    (b : Blueprint) : Along (Keeps Q) (create container name cell b).run := by
  refine Action.along_bind (inChain_keeps hQ (Action.along_lift
    (build_maker_along hQ name b)) container) fun built => ?_
  exact Action.along_bind
    (Action.along_lift (along_modify (refresh_keeps hQ cell built.node))) fun _ => along_pure _

theorem ask_keeps {α : Type} (container : String) (f : Chain → α) :
    Along (Keeps Q) (ask container f).run :=
  Action.along_bind (Action.along_lift along_get) fun _ => Action.along_pure _

/-- What is answered with a result leaves the session as the result did. -/
theorem state_answer {α : Type} (x : Action Session α) (f : α → Answer) (s : Session) :
    ((x >>= fun a => pure (f a) : Action Session Answer).run s).2 = (x.run s).2 := by
  rw [Action.run_bind]
  rcases x.run s with ⟨stop | a, s'⟩ <;> rfl

/-- An action whose result becomes an answer. -/
theorem answer_keeps {α : Type} {x : Action Session α} (hx : Along (Keeps Q) x.run)
    (f : α → Answer) : Along (Keeps Q) (x >>= fun a => pure (f a) : Action Session Answer).run :=
  Action.along_bind hx fun a => Action.along_pure (f a)

theorem perform_keeps (hQ : Container.StepAlong Q free) (container : String) (step : Step)
    (allowed : free ∨ step.isUnwrap = false) : Along (Keeps Q) (perform container step).run := by
  have hw := hQ.toWorkAlong
  have hm := maker_along hQ
  have unrelated : ∀ {f : Session → Session}, (∀ s, Keeps Q s (f s)) →
      Along (Keeps Q) (modify f : Action Session Unit).run := fun h =>
    Action.along_lift (along_modify h)
  have got : ∀ f : Session → Answer,
      Along (Keeps Q) (get >>= fun s => pure (f s) : Action Session Answer).run := fun f =>
    answer_keeps (Action.along_lift along_get) f
  cases step with
  | registerBlueprint name b =>
      exact answer_keeps (inContainer_keeps hQ (hQ.registerBlueprint · name b) container) _
  | registerSingleton name v =>
      exact answer_keeps (inContainer_keeps hQ (hQ.registerSingleton · name v) container) _
  | registerNull name =>
      exact answer_keeps (inContainer_keeps hQ (hQ.registerNull · name) container) _
  | registerType name =>
      exact answer_keeps (inContainer_keeps hQ (hQ.registerType · name) container) _
  | registerAlias byname name =>
      exact answer_keeps (inContainer_keeps hQ (hQ.registerAlias · byname name) container) _
  | reportStaleCandidate name =>
      exact answer_keeps (inContainer_keeps hQ (hQ.reportStaleCandidate · name) container) _
  | definePlaceholder key v =>
      exact answer_keeps (inContainer_keeps hQ (hQ.definePlaceholder · key v) container) _
  | changeOwner name b => exact answer_keeps (unrelated fun s => refl_of (Keeps Q) s) fun _ => .done
  | bind name raw => exact answer_keeps (unrelated fun s => refl_of (Keeps Q) s) fun _ => .done
  | copy name copy => exact answer_keeps (unrelated fun s => refl_of (Keeps Q) s) fun _ => .done
  | resolve source path => exact answer_keeps (resolve_keeps hQ container path source) _
  | inspect name => exact got _
  | markDynamic name path =>
      exact Action.along_bind (unrelated (editBound_keeps hQ name path _)) fun _ => got _
  | remember name path ty =>
      exact Action.along_bind (unrelated (editBound_keeps hQ name path _)) fun _ => got _
  | containsBean name => exact answer_keeps (ask_keeps container _) _
  | isNameInUse name => exact answer_keeps (ask_keeps container _) _
  | getByName name =>
      exact answer_keeps (inChain_keeps hQ (Chain.getByName_along hw hm name) container) _
  | getByType ty =>
      exact answer_keeps (inChain_keeps hQ (Chain.getByType_along hw hm ty) container) _
  | resolveNamedByType ty =>
      exact answer_keeps (inChain_keeps hQ (Chain.resolveNamedByType_along hw hm ty) container) _
  | resolveDependency d requesting =>
      exact answer_keeps
        (inChain_keeps hQ (Chain.resolveDependency_along hw hm d requesting) container) _
  | registerDependent dependency dependent =>
      exact answer_keeps
        (inContainer_keeps hQ (hQ.registerDependent · dependency dependent) container) _
  | registerContained inner owner =>
      exact answer_keeps (inContainer_keeps hQ (hQ.registerContained · inner owner) container) _
  | loadType name =>
      exact Action.along_bind (ask_keeps container _) fun _ =>
        answer_keeps (Action.along_ofExcept _) _
  | merge name nested owner => exact answer_keeps (Action.along_ofExcept _) _
  | create name cell b => exact answer_keeps (create_keeps hQ container name cell b) _
  | unwrap factory name postProcess =>
      obtain rfl : free = True := eq_true (allowed.resolve_right Bool.true_eq_false.mp)
      exact answer_keeps
        (inChain_keeps hQ (Chain.unwrapProduct_along hw factory name postProcess) container) _
  | dependents name => exact answer_keeps (ask_keeps container _) _
  | contained name => exact answer_keeps (ask_keeps container _) _
  | hasDependency dependency dependent => exact answer_keeps (ask_keeps container _) _
  | creationCount name => exact answer_keeps (ask_keeps container _) _
  | hasParent => exact answer_keeps (ask_keeps container _) _

/-- **What the changes of containers keep, every step keeps**, whatever comes of it. -/
theorem step_keeps_of (hQ : Container.StepAlong Q free) (s : Session) (container : String)
    {step : Step} (allowed : free ∨ step.isUnwrap = false) :
    Keeps Q s (s.step container step).2 :=
  perform_keeps hQ container step allowed s

theorem step_keeps (hQ : Container.StepAlong Q) (s : Session) (container : String) (step : Step) :
    Keeps Q s (s.step container step).2 :=
  step_keeps_of hQ s container (.inl trivial)

theorem take_keeps (hQ : Container.StepAlong Q) (s : Session) (entry : Entry) :
    Keeps Q s (s.take entry).2 :=
  step_keeps hQ { s with shelf := entry.shelf } entry.container entry.step

/-- **What the changes of containers keep, every script keeps.** -/
theorem run_keeps_of (hQ : Container.StepAlong Q free) (entries : List Entry)
    (allowed : free ∨ ∀ e ∈ entries, e.step.isUnwrap = false) (s : Session) :
    Keeps Q s (s.run entries) := by
  induction entries generalizing s with
  | nil => exact refl_of (Keeps Q) s
  | cons entry entries ih =>
      have first : Keeps Q s (s.take entry).2 :=
        step_keeps_of hQ { s with shelf := entry.shelf } entry.container
          (allowed.imp_right fun h => h entry List.mem_cons_self)
      exact trans_of (Keeps Q) first
        (ih (allowed.imp_right fun h e he => h e (List.mem_cons_of_mem _ he)) _)

theorem run_keeps (hQ : Container.StepAlong Q) (entries : List Entry) (s : Session) :
    Keeps Q s (s.run entries) :=
  run_keeps_of hQ entries (.inl trivial) s

end Session

end Wiring
