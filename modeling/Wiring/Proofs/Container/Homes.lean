import Wiring.Proofs.Container.Candidates
import Wiring.Proofs.Container.History
import Wiring.Proofs.Container.ObjectLeaves

/-!
# Containers — where beans come from

A bean has its home (`Home`) in the container that holds it, under the name it is registered with
there.  What is asked for has its home here or above: by name (`Chain.home?`), by type
(`Chain.homeOfType?`), and by a leaf of a blueprint, which is a reference or an injection point
(`Chain.asked?`).

**What is handed out is noted at the home of what was asked for** (`Chain.accounts`), whichever way it
is asked for, and the value that a leaf comes to is that of the bean noted.
-/

namespace Wiring

/-- Where a bean is registered. -/
structure Home where
  /-- The identity of the container. -/
  container : String
  name : String
  deriving DecidableEq

namespace Chain

/-- The containers above as a chain, if there are any. -/
def above? (chain : Chain) : Option Chain :=
  match chain.ancestors with
  | [] => none
  | up :: rest => some ⟨up, rest⟩

/-- The first container that holds the name, each container giving it the name it stands for
there. -/
def homeIn (c : Container) (ancestors : List Container) (name : String) : Option Home :=
  if c.holds (c.canonical name) then some ⟨c.id, c.canonical name⟩
  else
    match ancestors with
    | [] => none
    | up :: rest => homeIn up rest (c.canonical name)

/-- The home of the bean of the name, here or above. -/
def home? (chain : Chain) (name : String) : Option Home :=
  homeIn chain.own chain.ancestors name

/-- The home of the bean of the type, here or in one of the `height` containers above, where it is
looked for when the look-up here reports that no bean has a type. -/
def homeOfTypeWithin (depth : Nat) : Nat → Ty → Chain → Option Home
  | height, ty, chain =>
    match (resolveNamedByType (create depth) ty).run chain with
    | (.ok found, _) => chain.home? found.name
    | (.error (.error (.noSuchBeanOfType _)), s) =>
      match height with
      | 0 => none
      | height + 1 => s.above?.bind (homeOfTypeWithin depth height ty)
    | _ => none

/-- The home of the bean of the type, here or above. -/
def homeOfType? (depth : Nat) (ty : Ty) (chain : Chain) : Option Home :=
  homeOfTypeWithin depth chain.ancestors.length ty chain

/-- The home of the bean that the leaf asks for when it is resolved for the named bean. -/
def asked? (depth : Nat) (evaluation : Evaluation) (bean : String) (chain : Chain) :
    Raw → Option Home
  | .reference ⟨.name text, false⟩ =>
    (evaluation.evaluate chain.own.placeholders text).toOption.bind fun v => chain.home? v.text
  | .reference ⟨.name text, true⟩ =>
    (evaluation.evaluate chain.own.placeholders text).toOption.bind fun v =>
      chain.above?.bind fun up => up.home? v.text
  | .reference ⟨.type ty, false⟩ => (chain.own.ofType ty).toOption.bind chain.home?
  | .reference ⟨.type ty, true⟩ => chain.above?.bind (homeOfType? depth ty)
  | .dependency d => (chain.own.chosen d bean).toOption.join.bind chain.home?
  | _ => none

/-- The container of the home has noted that it handed out the bean for the name. -/
def Notes (chain : Chain) (home : Home) (bean : Managed) : Prop :=
  ∃ c ∈ chain.own :: chain.ancestors, c.id = home.container ∧ bean ∈ c.handed home.name

variable {depth : Nat} {chain after : Chain} {bean : Managed} {home : Home}

/-! ### Notes stay -/

/-- A note that was taken stays. -/
theorem Notes.mono (h : chain.Notes home bean) (continues : Each Container.Continues chain after) :
    after.Notes home bean := by
  obtain ⟨c, hc, id, noted⟩ := h
  obtain ⟨c', hc', became⟩ := becomes_of_mem (.cons continues.own continues.ancestors) hc
  exact ⟨c', hc', became.id.trans id, (became.history.filterMap _).subset noted⟩

/-- What is noted above is noted in the chain. -/
theorem Notes.cons (own : Container) (h : chain.Notes home bean) :
    (⟨own, chain.own :: chain.ancestors⟩ : Chain).Notes home bean := by
  obtain ⟨c, hc, noted⟩ := h
  exact ⟨c, List.mem_cons_of_mem _ hc, noted⟩

/-! ### By name -/

theorem home?_of_held {name : String} (held : chain.own.holds (chain.own.canonical name)) :
    chain.home? name = some ⟨chain.own.id, chain.own.canonical name⟩ := by
  rw [home?, homeIn.eq_def, if_pos held]

theorem home?_of_unheld {name : String} {up : Container} {rest : List Container}
    (missing : ¬ chain.own.holds (chain.own.canonical name)) (above : chain.ancestors = up :: rest) :
    chain.home? name = (⟨up, rest⟩ : Chain).home? (chain.own.canonical name) := by
  rw [home?, homeIn.eq_def, if_neg missing, above]
  rfl

theorem homeIn_of_grows : ∀ {ancestors ancestors' : List Container} {c c' : Container}
    (name : String), c.Grows c' → List.Forall₂ Container.Grows ancestors ancestors' →
      homeIn c' ancestors' name = homeIn c ancestors name
  | _, _, c, c', name, h, .nil => by
      rw [homeIn, homeIn, h.canonical, h.holds, h.id]
  | _, _, c, c', name, h, .cons hup hrest => by
      rw [homeIn, homeIn, h.canonical, h.holds, h.id]
      rw [homeIn_of_grows _ hup hrest]

/-- A name keeps its home. -/
theorem home?_of_grows (h : Each Container.Grows chain after) (name : String) :
    after.home? name = chain.home? name :=
  homeIn_of_grows name h.own h.ancestors

theorem findByName_notes {height : Nat} {chain after : Chain} {name : String}
    (h : (findByName (create depth) height name).run chain = (.ok bean, after)) :
    ∃ home, chain.home? name = some home ∧ after.Notes home bean := by
  have hgrows : Each Container.Grows chain after :=
    (findByName_along Container.workAlong_grows (create_along Container.workAlong_grows depth)
      height name).of_run h
  by_cases held : chain.own.holds (chain.own.canonical name)
  · exact ⟨_, home?_of_held held, after.own, List.mem_cons_self, hgrows.own.id,
      findByName_handed_own held h⟩
  · obtain ⟨below, up, rest, s, rfl, above, hbean, rfl⟩ := findByName_above_of_unheld held h
    obtain ⟨home, lives, noted⟩ := findByName_notes hbean
    exact ⟨home, (home?_of_unheld held above).trans lives, noted.cons chain.own⟩
termination_by height

/-- **A bean that is looked up by name is noted at the home of the name.** -/
theorem getByName_notes {name : String}
    (h : (getByName (create depth) name).run chain = (.ok bean, after)) :
    ∃ home, chain.home? name = some home ∧ after.Notes home bean :=
  findByName_notes h

/-! ### By type -/

/-- **The bean of a type is noted at the home of its name**, which is the one candidate here. -/
theorem resolveNamedByType_notes {ty : Ty} {found : NamedBean}
    (h : (resolveNamedByType (create depth) ty).run chain = (.ok found, after)) :
    chain.own.ofType ty = .ok found.name ∧
      ∃ home, chain.home? found.name = some home ∧ after.Notes home found.bean := by
  rw [run_resolveNamedByType] at h
  obtain ⟨name, mid, chosen, rest⟩ := Action.ok_of_bind h
  obtain ⟨chosen, rfl⟩ := Action.ok_of_ofExcept chosen
  obtain ⟨bean, s, looked, given⟩ := Action.ok_of_bind rest
  cases given
  exact ⟨chosen, getByName_notes looked⟩

/-- What is noted above, where it is asked for, is noted in the chain. -/
theorem inParent_notes {e : Error} {x : Action Chain Managed} {ask : Chain → Option Home}
    (hx : ∀ {s s' : Chain}, x.run s = (.ok bean, s') →
      ∃ home, ask s = some home ∧ s'.Notes home bean)
    (h : (inParent (Action.fail e) x).run chain = (.ok bean, after)) :
    ∃ home, chain.above?.bind ask = some home ∧ after.Notes home bean := by
  rw [above?]
  cases above : chain.ancestors with
  | nil =>
      rw [run_inParent_nil _ _ above] at h
      cases h
  | cons up rest =>
      rw [run_inParent_cons _ _ above] at h
      obtain ⟨hbean, rfl⟩ := Prod.mk.inj h
      obtain ⟨home, asked, noted⟩ := hx (Prod.ext hbean rfl)
      exact ⟨home, asked, noted.cons chain.own⟩

theorem findByType_notes : ∀ (height : Nat) {ty : Ty} {chain after : Chain},
    (findByType (create depth) height ty).run chain = (.ok bean, after) →
      ∃ home, homeOfTypeWithin depth height ty chain = some home ∧ after.Notes home bean
  | height, ty, chain, after, h => by
      rcases hrun : (resolveNamedByType (create depth) ty).run chain with ⟨outcome, s⟩
      by_cases hmissing : ∃ missing, outcome = .error (.error (.noSuchBeanOfType missing))
      · obtain ⟨missing, rfl⟩ := hmissing
        match height with
        | 0 => rw [findByType_missing hrun] at h; cases h
        | height + 1 =>
            rw [findByType_above height hrun] at h
            rw [homeOfTypeWithin, hrun]
            exact inParent_notes (findByType_notes height) h
      · have settled : ∀ missing, ((resolveNamedByType (create depth) ty).run chain).1 ≠
            .error (.error (.noSuchBeanOfType missing)) := by
          rw [hrun]
          exact fun missing heq => hmissing ⟨missing, heq⟩
        rw [findByType_here _ settled, hrun] at h
        cases outcome with
        | error stop => cases h
        | ok found =>
            cases h
            rw [homeOfTypeWithin, hrun]
            exact (resolveNamedByType_notes hrun).2

/-- **A bean that is looked up by type is noted at the home of the type.** -/
theorem getByType_notes {ty : Ty}
    (h : (getByType (create depth) ty).run chain = (.ok bean, after)) :
    ∃ home, chain.homeOfType? depth ty = some home ∧ after.Notes home bean :=
  findByType_notes _ h

/-! ### Injection points -/

/-- **The value for an injection point is that of the bean noted at the home of the chosen name**,
which is reported first; or null where none is chosen. -/
theorem resolveDependency_notes {d : Dependency} {requesting : String} {selection : Selection}
    (h : (resolveDependency (create depth) d requesting).run chain = (.ok selection, after)) :
    (chain.own.chosen d requesting = .ok none ∧ selection = ⟨.null, []⟩) ∨
      ∃ name home bean, chain.own.chosen d requesting = .ok (some name) ∧
        selection.candidates.head? = some name ∧ chain.home? name = some home ∧
        after.Notes home bean ∧ selection.value = bean.toValue := by
  rw [run_resolveDependency] at h
  obtain ⟨choice, mid, chosen, rest⟩ := Action.ok_of_bind h
  obtain ⟨chosen, rfl⟩ := Action.ok_of_ofExcept chosen
  cases choice with
  | none => cases rest; exact .inl ⟨chosen, rfl⟩
  | some name =>
      obtain ⟨bean, s, looked, given⟩ := Action.ok_of_bind rest
      obtain ⟨home, lives, noted⟩ := getByName_notes looked
      cases given
      exact .inr ⟨name, home, bean, chosen, Ordered.head?_ofList _ _, lives, noted, rfl⟩

/-! ### Leaves -/

section Leaf

variable {evaluation : Evaluation} {r : Resolver Chain}

theorem continues_of_collaborators
    (hr : r.collaborators = collaborators (create depth) evaluation) :
    r.GoesAlong (Each Container.Continues) :=
  goesAlong Container.workAlong_continues (create_along Container.workAlong_continues depth) hr

theorem findHere_notes (hr : r.collaborators = collaborators (create depth) evaluation)
    {ref : Reference} (here : ref.inParent = false) {found : NamedBean}
    (h : (r.findHere ref).run chain = (.ok found, after)) :
    ∃ home, chain.asked? depth evaluation r.bean (.reference ref) = some home ∧
      after.Notes home found.bean := by
  obtain ⟨target, inParent⟩ := ref
  obtain rfl : inParent = false := here
  unfold Resolver.findHere at h
  cases target with
  | type ty =>
      rw [hr] at h
      obtain ⟨hchosen, home, lives, noted⟩ := resolveNamedByType_notes h
      refine ⟨home, ?_, noted⟩
      rw [asked?, hchosen]
      exact lives
  | name text =>
      obtain ⟨name, s, hname, h⟩ := Action.ok_of_bind h
      obtain ⟨rfl, v, hv, rfl⟩ := ok_of_evaluateName hr hname
      obtain ⟨bean, after, hbean, h⟩ := Action.ok_of_bind h
      cases h
      rw [hr] at hbean
      obtain ⟨home, lives, noted⟩ := getByName_notes hbean
      refine ⟨home, ?_, noted⟩
      rw [asked?, hv]
      exact lives

theorem lookUpInParent_notes (hr : r.collaborators = collaborators (create depth) evaluation)
    {ref : Reference} (above : ref.inParent = true)
    (h : (r.lookUpInParent (parentLookups (create depth)) ref).run chain = (.ok bean, after)) :
    ∃ home, chain.asked? depth evaluation r.bean (.reference ref) = some home ∧
      after.Notes home bean := by
  obtain ⟨target, inParent⟩ := ref
  obtain rfl : inParent = true := above
  unfold Resolver.lookUpInParent at h
  cases target with
  | type ty => exact inParent_notes getByType_notes h
  | name text =>
      obtain ⟨name, s, hname, h⟩ := Action.ok_of_bind h
      obtain ⟨rfl, v, hv, rfl⟩ := ok_of_evaluateName hr hname
      rw [asked?, hv]
      exact inParent_notes getByName_notes h

/-- **The bean a reference leads to is noted at the home it asks for**, here or above. -/
theorem followReference_notes (hr : r.collaborators = collaborators (create depth) evaluation)
    {path : ArgPath} {ref : Reference}
    (h : (r.followReference path ref).run chain = (.ok bean, after)) :
    ∃ home, chain.asked? depth evaluation r.bean (.reference ref) = some home ∧
      after.Notes home bean := by
  unfold Resolver.followReference at h
  split at h
  next above =>
    obtain ⟨up, mid, hup, h⟩ := Action.ok_of_bind h
    rw [hr] at hup
    cases up with
    | none => cases h
    | some up =>
        obtain rfl : mid = chain := (congrArg Prod.snd hup).symm
        have hparent : (parent (create depth) mid).1 = some up :=
          Except.ok.inj (congrArg Prod.fst hup)
        obtain rfl := eq_parentLookups hparent
        exact lookUpInParent_notes hr above (Action.ok_of_mapError h)
  next here =>
    obtain ⟨found, mid, hfound, h⟩ := Action.ok_of_bind (Action.ok_of_mapError h)
    obtain ⟨home, asked, noted⟩ := findHere_notes hr (eq_false_of_ne_true here) hfound
    obtain ⟨⟨⟩, s, hrecord, h⟩ := Action.ok_of_bind h
    cases h
    have hgoes := continues_of_collaborators hr
    have continues := Action.along_lift (hgoes.registerDependent found.name r.bean)
    exact ⟨home, asked, noted.mono (continues.of_run hrecord)⟩

/-- **The value of a reference is that of the bean noted at the home it asks for.** -/
theorem reference_notes (hr : r.collaborators = collaborators (create depth) evaluation)
    {ref : Reference} {v : Value} (h : r.Resolves (.reference ref) v chain after) :
    ∃ home bean, chain.asked? depth evaluation r.bean (.reference ref) = some home ∧
      after.Notes home bean ∧ v = bean.toValue := by
  obtain ⟨path, node, h⟩ := h
  obtain ⟨bean, s, hfollowed, hvalue⟩ := Action.ok_of_bind (Action.ok_of_leaving h)
  cases hvalue
  obtain ⟨home, asked, noted⟩ := followReference_notes hr hfollowed
  exact ⟨home, bean, asked, noted, rfl⟩

/-- **The value of an injection point is that of the bean noted at the home it asks for**, or null
where no bean is chosen. -/
theorem dependency_notes (hr : r.collaborators = collaborators (create depth) evaluation)
    {d : Dependency} {v : Value} (h : r.Resolves (.dependency d) v chain after) :
    (chain.own.chosen d r.bean = .ok none ∧ v = .null) ∨
      ∃ home bean, chain.asked? depth evaluation r.bean (.dependency d) = some home ∧
        after.Notes home bean ∧ v = bean.toValue := by
  have hgoes := continues_of_collaborators hr
  obtain ⟨path, node, h⟩ := h
  obtain ⟨selection, mid, hselection, h⟩ := Action.ok_of_bind (Action.ok_of_leaving h)
  rw [hr] at hselection
  obtain ⟨⟨⟩, s, hrecord, h⟩ := Action.ok_of_bind h
  cases h
  rcases resolveDependency_notes hselection with
    ⟨hnone, rfl⟩ | ⟨name, home, bean, hchosen, -, lives, noted, hvalue⟩
  · exact .inl ⟨hnone, rfl⟩
  · have continues := Action.along_lift (Resolver.registerCandidates_along hgoes
      (Ordered.ofList selection.candidates))
    refine .inr ⟨home, bean, ?_, noted.mono (continues.of_run hrecord), hvalue⟩
    rw [asked?, hchosen]
    exact lives

/-- The value of a leaf that asks for a bean is that of a bean noted at its home. -/
theorem leaf_notes (hr : r.collaborators = collaborators (create depth) evaluation) {leaf : Raw}
    {v : Value} (asked : chain.asked? depth evaluation r.bean leaf = some home)
    (h : r.Resolves leaf v chain after) : ∃ bean, after.Notes home bean ∧ v = bean.toValue := by
  match leaf with
  | .reference ref =>
      obtain ⟨other, bean, lives, noted, hv⟩ := reference_notes hr h
      obtain rfl := Option.some.inj (asked.symm.trans lives)
      exact ⟨bean, noted, hv⟩
  | .dependency d =>
      rcases dependency_notes hr h with ⟨none, -⟩ | ⟨other, bean, lives, noted, hv⟩
      · rw [asked?, none] at asked
        cases asked
      · obtain rfl := Option.some.inj (asked.symm.trans lives)
        exact ⟨bean, noted, hv⟩
  | .null | .literal _ | .value _ | .nameReference _ | .holder _ _ _ _ | .nested _ _ | .array _ _ _
  | .list _ | .set _ | .map _ | .properties _ => cases asked

/-- The bean of each name that an inner bean depends on is noted at its home. -/
theorem prepare_notes (hr : r.collaborators = collaborators (create depth) evaluation)
    (inner : String) : ∀ (names : List String) {chain after : Chain},
    (r.prepare inner names).run chain = (.ok (), after) →
      ∀ d ∈ names, ∃ home bean, chain.home? d = some home ∧ after.Notes home bean
  | [], _, _, _, _, hmem => nomatch hmem
  | first :: names, chain, after, h, d, hmem => by
      have hgoes := continues_of_collaborators hr
      rw [Resolver.prepare] at h
      obtain ⟨⟨⟩, recorded, hrecorded, h⟩ := Action.ok_of_bind h
      obtain ⟨bean, mid, hbean, hrest⟩ := Action.ok_of_bind h
      -- what is recorded and made on the way changes no name's home
      have registered := Action.along_lift (hgoes.registerDependent first inner)
      have hready := registered.of_run hrecorded
      have hmid := (hgoes.getByName first).of_run hbean
      have hafter := (Resolver.prepare_along hgoes inner names).of_run hrest
      rcases List.mem_cons.1 hmem with rfl | hmem
      · rw [hr] at hbean
        obtain ⟨home, lives, noted⟩ := getByName_notes hbean
        exact ⟨home, bean, home?_of_grows (hready.imp fun h => h.toGrows) d ▸ lives,
          noted.mono hafter⟩
      · obtain ⟨home, bean, lives, noted⟩ := prepare_notes hr inner names hrest d hmem
        have grows := (trans_of _ hready hmid).imp fun h => h.toGrows
        exact ⟨home, bean, home?_of_grows grows d ▸ lives, noted⟩

end Leaf

/-! ### Everything that is handed out -/

/-- The chain keeps note of every bean it hands out, at the home of what was asked for. -/
structure Accounts (depth : Nat) (chain : Chain) : Prop where
  byName {name : String} {bean : Managed} {after : Chain}
    (h : (getByName (create depth) name).run chain = (.ok bean, after)) :
    ∃ home, chain.home? name = some home ∧ after.Notes home bean
  ofType {ty : Ty} {found : NamedBean} {after : Chain}
    (h : (resolveNamedByType (create depth) ty).run chain = (.ok found, after)) :
    chain.own.ofType ty = .ok found.name ∧
      ∃ home, chain.home? found.name = some home ∧ after.Notes home found.bean
  byType {ty : Ty} {bean : Managed} {after : Chain}
    (h : (getByType (create depth) ty).run chain = (.ok bean, after)) :
    ∃ home, chain.homeOfType? depth ty = some home ∧ after.Notes home bean
  injected {d : Dependency} {requesting : String} {selection : Selection} {after : Chain}
    (h : (resolveDependency (create depth) d requesting).run chain = (.ok selection, after)) :
    (chain.own.chosen d requesting = .ok none ∧ selection = ⟨.null, []⟩) ∨
      ∃ name home bean, chain.own.chosen d requesting = .ok (some name) ∧
        selection.candidates.head? = some name ∧ chain.home? name = some home ∧
        after.Notes home bean ∧ selection.value = bean.toValue
  reference {evaluation : Evaluation} {r : Resolver Chain} {ref : Reference} {v : Value}
    {after : Chain} (hr : r.collaborators = collaborators (create depth) evaluation)
    (h : r.Resolves (.reference ref) v chain after) :
    ∃ home bean, chain.asked? depth evaluation r.bean (.reference ref) = some home ∧
      after.Notes home bean ∧ v = bean.toValue
  dependency {evaluation : Evaluation} {r : Resolver Chain} {d : Dependency} {v : Value}
    {after : Chain} (hr : r.collaborators = collaborators (create depth) evaluation)
    (h : r.Resolves (.dependency d) v chain after) :
    (chain.own.chosen d r.bean = .ok none ∧ v = .null) ∨
      ∃ home bean, chain.asked? depth evaluation r.bean (.dependency d) = some home ∧
        after.Notes home bean ∧ v = bean.toValue
  prepared {evaluation : Evaluation} {r : Resolver Chain} {inner : String} {names : List String}
    {after : Chain} (hr : r.collaborators = collaborators (create depth) evaluation)
    (h : (r.prepare inner names).run chain = (.ok (), after)) :
    ∀ d ∈ names, ∃ home bean, chain.home? d = some home ∧ after.Notes home bean
  /-- Each value of an object is put together of values that the leaves of its blueprint came to. -/
  made {name : String} {b node : Blueprint} {bean : Managed} {after : Chain}
    (h : create (depth + 1) name b chain = (⟨node, .ok bean⟩, after)) :
    ∃ vs, OneByOne (Each Container.Continues) (objectResolver depth name b).Resolves b.leaves vs
      chain after ∧ Holds name b vs bean

/-- **Whatever a chain hands out is noted at the home of what was asked for.** -/
theorem accounts (depth : Nat) (chain : Chain) : chain.Accounts depth where
  byName := getByName_notes
  ofType := resolveNamedByType_notes
  byType := getByType_notes
  injected := resolveDependency_notes
  reference hr h := reference_notes hr h
  dependency hr h := dependency_notes hr h
  prepared hr h := prepare_notes hr _ _ h
  made := create_leaves Container.workAlong_continues

end Chain

end Wiring
