import Wiring.Proofs.Session.Along

/-!
# Sessions — containers of one identity

A session may have several members for one container.  They change alike: every step makes of each
container what depends on that container only (`Reshaped`, `take_reshapes`).

**In every run containers of the same identity are the same** (`Coherent.run`).  So a chain has the
session's own containers (`eq_of_coherent`), and what becomes of a chain becomes of all of them
(`latest_related`).
-/

namespace Wiring.Session

variable {s s' : Session}

/-- Containers of the same identity are the same. -/
def Coherent (s : Session) : Prop :=
  ∀ m ∈ s.members, ∀ m' ∈ s.members, m.container.id = m'.container.id → m.container = m'.container

/-- Each container has become what `g` makes of it, and has kept its identity. -/
def Reshaped (s s' : Session) : Prop :=
  ∃ g : Container → Container, (∀ c, (g c).id = c.id) ∧
    s'.members = s.members.map fun m => { m with container := g m.container }

instance : IsPreorder Session Reshaped where
  refl s := ⟨fun c => c, fun _ => rfl, (List.map_id _).symm⟩
  trans := by
    rintro s t u ⟨g, hg, ht⟩ ⟨h, hh, hu⟩
    refine ⟨fun c => h (g c), fun c => (hh _).trans (hg c), ?_⟩
    rw [hu, ht, List.map_map]
    rfl

theorem Coherent.reshaped (h : s.Coherent) (reshaped : Reshaped s s') : s'.Coherent := by
  obtain ⟨g, hg, members⟩ := reshaped
  intro m hm m' hm' hid
  rw [members] at hm hm'
  obtain ⟨n, hn, rfl⟩ := List.mem_map.1 hm
  obtain ⟨n', hn', rfl⟩ := List.mem_map.1 hm'
  dsimp only at hid ⊢
  rw [hg, hg] at hid
  rw [h n hn n' hn' hid]

/-- What has become of a container in a chain, if it is one of the chain's. -/
def latest (chain : Chain) (c : Container) : Container :=
  ((chain.own :: chain.ancestors).find? fun d => d.id == c.id).getD c

theorem latest_id (chain : Chain) (c : Container) : (latest chain c).id = c.id := by
  rw [latest]
  cases hfind : (chain.own :: chain.ancestors).find? fun d => d.id == c.id with
  | none => rfl
  | some d =>
      have hid := List.find?_some hfind
      exact eq_of_beq hid

theorem stored_eq (chain : Chain) (m : Member) :
    stored chain m = { m with container := latest chain m.container } := by
  rw [stored, latest]
  cases (chain.own :: chain.ancestors).find? fun d => d.id == m.container.id <;> rfl

theorem store_reshapes (s : Session) (chain : Chain) : Reshaped s (s.store chain) :=
  ⟨latest chain, latest_id chain, List.map_congr_left fun m _ => stored_eq chain m⟩

theorem inChain_reshapes {α : Type} (id : String) (x : Action Chain α) :
    Along Reshaped (inChain id x).run := fun s => store_reshapes s _

theorem refresh_reshapes (s : Session) (cell : Nat) (new : Blueprint) :
    Reshaped s (s.refresh cell new) :=
  ⟨fun c => { c with definitions := c.definitions.map (Raw.refreshBlueprint cell new) },
    fun _ => rfl, rfl⟩

theorem editBound_reshapes (s : Session) (name : String) (path : List Nat) (f : Raw → Raw) :
    Reshaped s (s.editBound name path f) := by
  rw [editBound]
  split
  · exact refresh_reshapes (s.bind name _) _ _
  · exact refl_of Reshaped s

/-- Every step changes containers of one identity alike. -/
theorem perform_reshapes (container : String) (step : Step) :
    Along Reshaped (perform container step).run := by
  have answers : ∀ {α : Type} {x : Action Session α}, Along Reshaped x.run → ∀ f : α → Answer,
      Along Reshaped (x >>= fun a => pure (f a) : Action Session Answer).run :=
    fun hx f => Action.along_bind hx fun a => Action.along_pure (f a)
  have got : ∀ {α : Type} (f : Session → α),
      Along Reshaped (get >>= fun s => pure (f s) : Action Session α).run := fun f =>
    Action.along_bind (Action.along_lift along_get) fun s => Action.along_pure (f s)
  cases step with
  | registerBlueprint | registerSingleton | registerNull | registerType | registerAlias
  | reportStaleCandidate | definePlaceholder | registerDependent | registerContained =>
      exact answers (inChain_reshapes container _) _
  | getByName | getByType | resolveNamedByType | resolveDependency | unwrap =>
      exact answers (inChain_reshapes container _) _
  | changeOwner | bind | copy =>
      exact answers (Action.along_lift (along_modify fun s => refl_of Reshaped s)) fun _ => .done
  | containsBean | isNameInUse | dependents | contained | hasDependency | creationCount
  | hasParent => exact answers (got _) _
  | inspect => exact got _
  | loadType => exact Action.along_bind (got _) fun _ => answers (Action.along_ofExcept _) _
  | merge => exact answers (Action.along_ofExcept _) _
  | markDynamic name path =>
      exact Action.along_bind (Action.along_lift
        (along_modify (editBound_reshapes · name path Raw.markDynamic))) fun _ => got _
  | remember name path ty =>
      exact Action.along_bind (Action.along_lift
        (along_modify (editBound_reshapes · name path (Raw.remember ty)))) fun _ => got _
  | resolve source path =>
      refine answers ?_ _
      cases source with
      | given raw =>
          exact Action.along_bind (Action.along_lift along_get) fun s =>
            inChain_reshapes container _
      | bound name =>
          refine Action.along_bind (Action.along_lift along_get) fun s => ?_
          refine Action.along_bind (inChain_reshapes container _) fun resolved => ?_
          exact Action.along_bind (Action.along_lift (along_modify fun s => refl_of Reshaped s))
            fun _ => along_pure _
  | create name cell b =>
      refine answers (Action.along_bind (inChain_reshapes container _) fun built => ?_) _
      exact Action.along_bind (Action.along_lift
        (along_modify (refresh_reshapes · cell built.node))) fun _ => along_pure _

theorem coherent_start (containers : List (String × Option String)) (owner : String)
    (blueprint : Blueprint) (naming : Naming) (evaluation : Evaluation) (shelf : Shelf) :
    (start containers owner blueprint naming evaluation shelf).Coherent := by
  intro m hm m' hm' hid
  obtain ⟨_, -, rfl⟩ := List.mem_map.1 hm
  obtain ⟨_, -, rfl⟩ := List.mem_map.1 hm'
  exact congrArg (fun id : String => ({ id } : Container)) hid

theorem take_reshapes (s : Session) (e : Entry) : Reshaped s (s.take e).2 :=
  perform_reshapes e.container e.step { s with shelf := e.shelf }

theorem Coherent.run (h : s.Coherent) (entries : List Entry) : (s.run entries).Coherent := by
  induction entries generalizing s with
  | nil => exact h
  | cons e entries ih =>
      exact ih (h.reshaped (take_reshapes s e))

/-! ### The containers of a chain -/

theorem chain_id (s : Session) (id : String) : (s.chain id).own.id = id := by
  cases hm : s.member? id with
  | none => rw [chain_absent hm]
  | some m => rw [own_chain hm, member?_id hm]

/-- A container in a chain is the one of its identity. -/
theorem eq_of_coherent (h : s.Coherent) {id : String} {c : Container} {m : Member}
    (hc : c ∈ (s.chain id).own :: (s.chain id).ancestors) (hm : m ∈ s.members)
    (hid : c.id = m.container.id) : c = m.container := by
  cases hfirst : s.member? c.id with
  | none => exact absurd (beq_iff_eq.2 hid.symm) (List.find?_eq_none.1 hfirst m hm)
  | some first =>
      rw [← eq_of_mem_chain hc hfirst]
      exact h first (List.mem_of_find?_eq_some hfirst) m hm ((member?_id hfirst).trans hid)

/-- What is stored for a member of what a chain has become is related to what it was. -/
theorem latest_related {Q : Container → Container → Prop} [IsPreorder Container Q]
    (hQ : ∀ {c c'}, Q c c' → c'.id = c.id) (h : s.Coherent) {id : String} {chain : Chain}
    (each : Chain.Each Q (s.chain id) chain) {m : Member} (hm : m ∈ s.members) :
    Q m.container (latest chain m.container) := by
  rw [latest]
  cases hfind : (chain.own :: chain.ancestors).find? fun d => d.id == m.container.id with
  | none => exact refl_of Q m.container
  | some c' =>
      obtain ⟨c, hc, hcQ⟩ :=
        Chain.related_of_mem (.cons each.own each.ancestors) (List.mem_of_find?_eq_some hfind)
      have hid := List.find?_some hfind
      rw [← eq_of_coherent h hc hm ((hQ hcQ).symm.trans (eq_of_beq hid))]
      exact hcQ

end Wiring.Session
