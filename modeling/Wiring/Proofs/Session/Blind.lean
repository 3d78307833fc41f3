import Wiring.Proofs.Container.Blind
import Wiring.Proofs.Session.Along

/-!
# Sessions — the history is not read

Two sessions are alike when they are the same but for their shelves and for the histories of their
containers (`Session.Alike`).  Every step of one has the same answer in the other, and they are
alike again (`perform_blind`, `take_alike`): **what comes of a script does not depend on the
histories** (`answers_of_alike`).
-/

namespace Wiring

/-- The members are the same, but for the histories of their containers. -/
def Member.Alike (m m' : Member) : Prop :=
  ∃ history, m' = { m with container := { m.container with history } }

theorem Member.Alike.container {m m' : Member} (h : m.Alike m') :
    m.container.Alike m'.container := by
  obtain ⟨history, rfl⟩ := h
  exact ⟨history, rfl⟩

theorem Member.Alike.of_container {m : Member} {c c' : Container} (h : c.Alike c') :
    Member.Alike { m with container := c } { m with container := c' } := by
  obtain ⟨history, rfl⟩ := h
  exact ⟨history, rfl⟩

theorem Member.Alike.symm {m m' : Member} (h : m.Alike m') : m'.Alike m := by
  obtain ⟨history, rfl⟩ := h
  exact ⟨m.container.history, rfl⟩

instance : IsTrans Member Member.Alike where
  trans := by
    rintro m _ _ ⟨history, rfl⟩ ⟨later, rfl⟩
    exact ⟨later, rfl⟩

namespace Session

/-- The sessions are the same, but for their shelves and the histories of their containers. -/
def Alike (s s' : Session) : Prop :=
  ∃ members shelf, s' = { s with members, shelf } ∧ List.Forall₂ Member.Alike s.members members

/-- From alike sessions, the computation has the same result and ends in alike sessions. -/
def Blind {α : Type} (x : StateM Session α) : Prop :=
  Mirrors Alike x x

variable {α : Type} {s s' : Session}

theorem Alike.refl (s : Session) : s.Alike s :=
  ⟨s.members, s.shelf, rfl, List.forall₂_same.2 fun m _ => ⟨m.container.history, rfl⟩⟩

theorem Alike.trans {s'' : Session} (h : s.Alike s') (h' : s'.Alike s'') : s.Alike s'' := by
  obtain ⟨members, shelf, rfl, hms⟩ := h
  obtain ⟨members', shelf', rfl, hms'⟩ := h'
  exact ⟨members', shelf', rfl, Chain.forall₂_trans hms hms'⟩

theorem Alike.symm (h : s.Alike s') : s'.Alike s := by
  obtain ⟨members, shelf, rfl, hms⟩ := h
  exact ⟨s.members, s.shelf, rfl, List.Forall₂.flip (hms.imp fun _ _ hm => hm.symm)⟩

theorem Alike.members (h : s.Alike s') : List.Forall₂ Member.Alike s.members s'.members := by
  obtain ⟨members, shelf, rfl, h⟩ := h
  exact h

theorem Alike.resolver (h : s.Alike s') : s.resolver = s'.resolver := by
  obtain ⟨members, shelf, rfl, -⟩ := h
  rfl

theorem Alike.boundRaw (h : s.Alike s') (name : String) : s.boundRaw name = s'.boundRaw name := by
  obtain ⟨members, shelf, rfl, -⟩ := h
  rfl

/-- Alike sessions with alike members in the place of their own. -/
theorem Alike.with_members (h : s.Alike s') {ms ms' : List Member}
    (hms : List.Forall₂ Member.Alike ms ms') :
    Alike { s with members := ms } { s' with members := ms' } := by
  obtain ⟨members, shelf, rfl, -⟩ := h
  exact ⟨ms', shelf, rfl, hms⟩

/-! ### Chains -/

/-- Alike members have the same identities, so the same one is found. -/
theorem find?_alike {ms ms' : List Member} (h : List.Forall₂ Member.Alike ms ms') (id : String) :
    Option.Rel Member.Alike (ms.find? fun m => m.container.id == id)
      (ms'.find? fun m => m.container.id == id) := by
  induction h with
  | nil => exact .none
  | cons hm _ ih =>
      obtain ⟨history, rfl⟩ := hm
      rw [List.find?_cons, List.find?_cons]
      dsimp only
      split
      · exact .some ⟨history, rfl⟩
      · exact ih

theorem member?_alike (h : s.Alike s') (id : String) :
    Option.Rel Member.Alike (s.member? id) (s'.member? id) := find?_alike h.members id

theorem upwards_alike (h : s.Alike s') :
    ∀ (n : Nat) (start : Option String),
      List.Forall₂ Container.Alike (s.upwards n start) (s'.upwards n start)
  | 0, _ => .nil
  | _ + 1, none => .nil
  | n + 1, some id => by
      have hm := member?_alike h id
      rw [upwards, upwards]
      revert hm
      cases s.member? id <;> cases s'.member? id <;> intro hm <;> cases hm
      case none.none.none => exact .nil
      case some.some.some hm =>
        obtain ⟨history, rfl⟩ := hm
        exact .cons ⟨history, rfl⟩ (upwards_alike h n _)

theorem chain_alike (h : s.Alike s') (id : String) :
    Chain.Each Container.Alike (s.chain id) (s'.chain id) := by
  have hup := upwards_alike h s.members.length (some id)
  rw [chain, chain, ← h.members.length_eq]
  revert hup
  cases s.upwards s.members.length (some id) <;> cases s'.upwards s.members.length (some id) <;>
    intro hup <;> cases hup
  case nil.nil.nil => exact ⟨.refl _, .nil⟩
  case cons.cons.cons hown habove => exact ⟨hown, habove⟩

/-- The same one of alike containers is stored in the place of alike members. -/
theorem stored_alike {c c' : Chain} (hc : Chain.Each Container.Alike c c') {m m' : Member}
    (hm : m.Alike m') : (stored c m).Alike (stored c' m') := by
  obtain ⟨history, rfl⟩ := hm
  have found : ∀ {cs cs' : List Container}, List.Forall₂ Container.Alike cs cs' →
      Option.Rel Container.Alike (cs.find? fun d => d.id == m.container.id)
        (cs'.find? fun d => d.id == m.container.id) := by
    intro cs cs' h
    induction h with
    | nil => exact .none
    | cons hd _ ih =>
        obtain ⟨later, rfl⟩ := hd
        rw [List.find?_cons, List.find?_cons]
        dsimp only
        split
        · exact .some ⟨later, rfl⟩
        · exact ih
  have hrel := found (.cons hc.own hc.ancestors)
  rw [stored, stored]
  dsimp only
  revert hrel
  cases (c.own :: c.ancestors).find? _ <;> cases (c'.own :: c'.ancestors).find? _ <;>
    intro hrel <;> cases hrel
  case none.none.none => exact ⟨history, rfl⟩
  case some.some.some hd => exact .of_container hd

theorem store_alike (h : s.Alike s') {c c' : Chain} (hc : Chain.Each Container.Alike c c') :
    (s.store c).Alike (s'.store c') :=
  h.with_members (List.rel_map (fun _ _ hm => stored_alike hc hm) h.members)

/-! ### Work on the session -/

theorem blind_pure (a : α) : Blind (pure a) := Mirrors.pure a

theorem blind_modify {f : Session → Session} (h : ∀ {s s'}, Alike s s' → Alike (f s) (f s')) :
    Blind (modify f : Action Session Unit).run :=
  fun _ _ hR => ⟨rfl, h hR⟩

theorem inChain_blind {x : Action Chain α} (hx : Chain.Blind x.run) (id : String) :
    Blind (inChain id x).run := fun _ _ hR =>
  have run := hx _ _ (chain_alike hR id)
  ⟨run.result, store_alike hR run.state⟩

theorem inContainer_blind {f : Container → Container}
    (h : ∀ c history, ∃ history', f { c with history } = { f c with history := history' })
    (id : String) : Blind (inContainer id f).run :=
  inChain_blind (x := modify (Chain.modifyOwn f))
    (Action.mirrors_lift (x := modify _) (y := modify _) (Chain.blind_modifyOwn_same h)) id

theorem ask_blind {f : Chain → α} (h : ∀ {c c'}, Chain.Each Container.Alike c c' → f c = f c')
    (id : String) : Blind (ask id f).run :=
  Action.mirrors_read fun hR => h (chain_alike hR id)

/-- What is asked of a container is not its history. -/
theorem ask_own_blind {f : Container → α} (h : ∀ c history, f { c with history } = f c)
    (id : String) : Blind (ask id fun chain => f chain.own).run :=
  ask_blind (fun {c c'} hc => by
    obtain ⟨history, hown⟩ := hc.own
    rw [hown]
    exact (h c.own history).symm) id

theorem bind_alike (h : s.Alike s') (name : String) (raw : Raw) :
    (s.bind name raw).Alike (s'.bind name raw) := by
  obtain ⟨members, shelf, rfl, hms⟩ := h
  exact ⟨members, shelf, rfl, hms⟩

theorem refresh_alike (h : s.Alike s') (cell : Nat) (new : Blueprint) :
    (s.refresh cell new).Alike (s'.refresh cell new) := by
  obtain ⟨members, shelf, rfl, hms⟩ := h
  refine ⟨_, shelf.refresh cell new, rfl, List.rel_map (fun m m' hm => ?_) hms⟩
  obtain ⟨history, rfl⟩ := hm
  exact ⟨history, rfl⟩

theorem editBound_alike (h : s.Alike s') (name : String) (path : List Nat) (f : Raw → Raw) :
    (s.editBound name path f).Alike (s'.editBound name path f) := by
  rw [editBound, editBound, h.boundRaw name]
  split
  next cell new _ => exact refresh_alike (bind_alike h name _) cell new
  next => exact bind_alike h name _

theorem resolve_blind (container : String) (path : ArgPath) (source : Source) :
    Blind (resolve container path source).run := by
  have blind : ∀ (s : Session) (raw : Raw), Chain.Blind (s.resolver.resolve path raw) :=
    fun _ => Chain.resolve_blind (Chain.create_blind depthLimit) rfl path
  cases source with
  | given raw =>
      refine Action.mirrors_get_bind fun s s' h => ?_
      rw [← h.resolver]
      exact inChain_blind (x := ExceptT.mk do return (← s.resolver.resolve path raw).outcome)
        (Chain.blind_bind (blind s raw) fun _ => Chain.blind_pure _) container s s' h
  | bound name =>
      refine Action.mirrors_get_bind fun s s' h => ?_
      rw [← h.resolver, ← h.boundRaw name]
      refine Action.mirrors_bind (inChain_blind (Action.mirrors_lift (blind s _)) container)
        (fun resolved => ?_) s s' h
      exact Action.mirrors_bind (blind_modify fun h => bind_alike h name resolved.node) fun _ =>
        blind_pure _

theorem create_blind (container name : String) (cell : Nat) (b : Blueprint) :
    Blind (create container name cell b).run := by
  have blind := Chain.build_blind (Chain.create_blind depthLimit) name b
  refine Action.mirrors_bind (inChain_blind (Action.mirrors_lift blind) container) fun built => ?_
  exact Action.mirrors_bind (blind_modify fun h => refresh_alike h cell built.node) fun _ =>
    blind_pure _

/-! ### Steps -/

/-- An action whose result becomes an answer. -/
theorem answer_blind {x : Action Session α} (hx : Blind x.run) (f : α → Answer) :
    Blind (x >>= fun a => pure (f a) : Action Session Answer).run :=
  Action.mirrors_bind hx fun a => Action.mirrors_pure (f a)

/-- **Every step is blind.** -/
theorem perform_blind (container : String) (step : Step) : Blind (perform container step).run := by
  have hm : Chain.MakesBlind maker := Chain.create_blind depthLimit
  -- a registration that leaves the histories alone, and one that is noted
  have plain : ∀ {f : Container → Container}, (∀ c history, f { c with history } =
      { f c with history }) → ∀ answer : Unit → Answer,
      Blind (inContainer container f >>= fun a => pure (answer a) : Action Session Answer).run :=
    fun h => answer_blind (inContainer_blind (fun c history => ⟨history, h c history⟩) container)
  cases step with
  | registerBlueprint name b =>
      refine answer_blind (inContainer_blind (fun c history => ?_) container) _
      unfold Container.registerBlueprint
      split
      · exact ⟨_, rfl⟩
      · exact ⟨_, rfl⟩
  | registerSingleton name v =>
      refine answer_blind (inContainer_blind (fun c history => ?_) container) _
      unfold Container.registerSingleton
      split
      · exact ⟨_, rfl⟩
      · exact ⟨_, rfl⟩
  | registerNull name =>
      exact answer_blind (inContainer_blind (fun c history => ⟨_, rfl⟩) container) _
  | registerType name => exact plain (fun _ _ => rfl) _
  | registerAlias byname name =>
      exact answer_blind (inContainer_blind (fun c history => ⟨_, rfl⟩) container) _
  | reportStaleCandidate name => exact plain (fun _ _ => rfl) _
  | definePlaceholder key v => exact plain (fun _ _ => rfl) _
  | changeOwner name b =>
      refine answer_blind (blind_modify fun h => ?_) fun _ => .done
      obtain ⟨members, shelf, rfl, hms⟩ := h
      exact ⟨members, shelf, rfl, hms⟩
  | bind name raw => exact answer_blind (blind_modify fun h => bind_alike h name raw) fun _ => .done
  | copy name copy =>
      refine answer_blind (blind_modify fun h => ?_) fun _ => .done
      rw [← h.boundRaw name]
      exact bind_alike h copy _
  | resolve source path => exact answer_blind (resolve_blind container path source) _
  | inspect name => exact Action.mirrors_read fun h => congrArg Answer.raw (h.boundRaw name)
  | markDynamic name path =>
      refine Action.mirrors_bind (blind_modify fun h => editBound_alike h name path _) fun _ => ?_
      exact Action.mirrors_read fun h => by rw [h.boundRaw name]
  | remember name path ty =>
      refine Action.mirrors_bind (blind_modify fun h => editBound_alike h name path _) fun _ => ?_
      exact Action.mirrors_read fun h => by rw [h.boundRaw name]
  | containsBean name =>
      exact answer_blind (ask_blind (fun h => Chain.containsIn_of_alike name h.own h.ancestors) _) _
  | isNameInUse name =>
      exact answer_blind (ask_own_blind (f := (·.isNameInUse name)) (fun _ _ => rfl) _) _
  | getByName name => exact answer_blind (inChain_blind (Chain.getByName_blind hm name) _) _
  | getByType ty => exact answer_blind (inChain_blind (Chain.getByType_blind hm ty) _) _
  | resolveNamedByType ty =>
      exact answer_blind (inChain_blind (Chain.resolveNamedByType_blind hm ty) _) _
  | resolveDependency d requesting =>
      exact answer_blind (inChain_blind (Chain.resolveDependency_blind hm d requesting) _) _
  | registerDependent dependency dependent => exact plain (fun _ _ => rfl) _
  | registerContained inner owner => exact plain (fun _ _ => rfl) _
  | loadType name =>
      exact Action.mirrors_bind (ask_blind (fun h => (h.own.loadType name).symm) _) fun _ =>
        answer_blind (Action.mirrors_ofExcept _) _
  | merge name nested owner => exact answer_blind (Action.mirrors_ofExcept _) _
  | create name cell b => exact answer_blind (create_blind container name cell b) _
  | unwrap factory name postProcess =>
      exact answer_blind (inChain_blind (Chain.unwrapProduct_blind factory name postProcess) _) _
  | dependents name =>
      exact answer_blind (ask_own_blind (f := (·.dependents.targets name)) (fun _ _ => rfl) _) _
  | contained name =>
      exact answer_blind (ask_own_blind (f := (·.contained.targets name)) (fun _ _ => rfl) _) _
  | hasDependency dependency dependent =>
      exact answer_blind
        (ask_own_blind (f := (·.dependents.contains dependency dependent)) (fun _ _ => rfl) _) _
  | creationCount name =>
      exact answer_blind (ask_own_blind (f := (·.creationCount name)) (fun _ _ => rfl) _) _
  | hasParent =>
      refine answer_blind (ask_blind (fun {c c'} hc => ?_) _) _
      obtain ⟨own, ancestors⟩ := c
      obtain ⟨own', ancestors'⟩ := c'
      cases hc.ancestors with
      | nil => rfl
      | cons _ _ => rfl

/-! ### Scripts -/

/-- Alike members that become alike again were active alike. -/
theorem filterMap_zip_alike {f : Member × Member → Option Activity}
    (hf : ∀ {m m' n n'}, Member.Alike m m' → Member.Alike n n' → f (m, n) = f (m', n')) :
    ∀ {ms ms' ns ns' : List Member}, List.Forall₂ Member.Alike ms ms' →
      List.Forall₂ Member.Alike ns ns' →
      (ms.zip ns).filterMap f = (ms'.zip ns').filterMap f
  | _, _, _, _, .nil, _ => rfl
  | _, _, _, _, .cons _ _, .nil => rfl
  | _, _, _, _, .cons hm hms, .cons hn hns => by
      rw [List.zip_cons_cons, List.zip_cons_cons, List.filterMap_cons, List.filterMap_cons,
        hf hm hn, filterMap_zip_alike hf hms hns]

/-- Alike sessions that become alike again were active alike. -/
theorem activities_of_alike {t t' : Session} (h : s.Alike s') (h' : t.Alike t') :
    activities s t = activities s' t' := by
  refine filterMap_zip_alike (fun hm hn => ?_) h.members h'.members
  obtain ⟨_, rfl⟩ := hm
  obtain ⟨_, rfl⟩ := hn
  rfl

/-- What comes of the steps of a script, and what the containers made on the way. -/
def answers (s : Session) : List Entry → List (Except Stop Answer × List Activity)
  | [] => []
  | entry :: entries => (s.take entry).1 :: (s.take entry).2.answers entries

/-- A step has the same answer in alike sessions, and they are alike again. -/
theorem take_alike (h : s.Alike s') (entry : Entry) :
    (s.take entry).1 = (s'.take entry).1 ∧ (s.take entry).2.Alike (s'.take entry).2 := by
  obtain ⟨container, step, shelf⟩ := entry
  have hshelf : Alike { s with shelf } { s' with shelf } := by
    obtain ⟨members, old, rfl, hms⟩ := h
    exact ⟨members, shelf, rfl, hms⟩
  have run := perform_blind container step _ _ hshelf
  exact ⟨Prod.ext run.result (activities_of_alike hshelf run.state), run.state⟩

theorem run_alike (entries : List Entry) {s s' : Session} (h : s.Alike s') :
    (s.run entries).Alike (s'.run entries) := by
  induction entries generalizing s s' with
  | nil => exact h
  | cons entry entries ih => exact ih (take_alike h entry).2

/-- **What comes of a script does not depend on the histories.** -/
theorem answers_of_alike (entries : List Entry) {s s' : Session} (h : s.Alike s') :
    s.answers entries = s'.answers entries := by
  induction entries generalizing s s' with
  | nil => rfl
  | cons entry entries ih =>
      obtain ⟨same, alike⟩ := take_alike h entry
      rw [answers, answers, same, ih alike]

end Session

end Wiring
