import Wiring.Proofs.Container.Homes
import Wiring.Proofs.Container.Singletons
import Wiring.Proofs.Session.Parents

/-!
# Sessions — the work of a run

Whatever a session does, each of its containers `Serves` what it served: so a container in which no
name was registered twice is `Orderly` after every run (`orderly_run`).

A step works on a chain of the session's containers (`Session.Does`) and stores it.  **All that its
work has noted is kept by the session after it** (`covers_take`), since no container is above itself:
then none is in the chain twice, and each is stored as the work has left it.
-/

namespace Wiring.Session

open Container

theorem stepAlong_serves : StepAlong Serves where
  toWorkAlong := workAlong_serves
  id h := h.id
  registerBlueprint c name b := by
    rw [registerBlueprint]
    split <;>
      exact serves_register name rfl
        (fun other hne => (scope?_of_insert (a := c) rfl other).trans (if_neg hne))
        (fun _ _ => rfl) (.inr rfl) rfl
  registerSingleton c name v := by
    unfold registerSingleton
    split <;>
      exact serves_register name rfl (fun _ _ => rfl)
        (fun other hne => (Table.get?_insert _ _ _ other).trans (if_neg hne)) (.inl rfl) rfl
  registerNull c name :=
    serves_register name rfl (fun _ _ => rfl)
      (fun other hne => (Table.get?_insert _ _ _ other).trans (if_neg hne)) (.inl rfl) rfl
  registerType _ _ := .of_eq rfl rfl rfl fun _ => rfl
  registerAlias c byname _ :=
    serves_register byname rfl (fun _ _ => rfl) (fun _ _ => rfl) (.inl rfl) rfl
  reportStaleCandidate _ _ := .of_eq rfl rfl rfl fun _ => rfl
  definePlaceholder _ _ _ := .of_eq rfl rfl rfl fun _ => rfl
  refresh c cell new := .of_eq rfl rfl rfl fun name => by
    rw [scope?, Table.get?_map, scope?, Option.map_map]
    congr 1
    funext b
    rw [Function.comp_apply, Raw.refreshBlueprint_eq]

/-- In a new container nothing has happened. -/
theorem orderly_start {containers : List (String × Option String)} {owner : String}
    {blueprint : Blueprint} {naming : Naming} {evaluation : Evaluation} {shelf : Shelf}
    {id : String} {m : Member}
    (h : (start containers owner blueprint naming evaluation shelf).member? id = some m) :
    m.container.Orderly := by
  obtain ⟨⟨new, parent⟩, -, rfl⟩ := List.mem_map.1 (List.mem_of_find?_eq_some h)
  exact ⟨fun _ => ⟨rfl, rfl, rfl⟩, fun defined => nofun, fun defined => nofun⟩

/-- The invariant holds after every run, in every container in which no name was registered
twice. -/
theorem orderly_run (containers : List (String × Option String)) (owner : String)
    (blueprint : Blueprint) (naming : Naming) (evaluation : Evaluation) (shelf : Shelf)
    (entries : List Entry) {id : String} {m : Member}
    (h : ((start containers owner blueprint naming evaluation shelf).run entries).member? id =
      some m) (once : m.container.registrations.Nodup) : m.container.Orderly := by
  have hkeeps := run_keeps stepAlong_serves entries
    (start containers owner blueprint naming evaluation shelf)
  obtain ⟨new, hnew, serves⟩ := hkeeps.earlier h
  exact serves.orderly once (orderly_start hnew)

/-! ### The work of a run -/

/-- Each container of the chain is one of the session's, and what it has noted stands at the
beginning of that one's history. -/
def Covers (t : Session) (chain : Chain) : Prop :=
  ∀ c ∈ chain.own :: chain.ancestors, ∃ m, t.member? c.id = some m ∧
    c.history <+: m.container.history

/-- The work of the step, with the given container, leaves the chain. -/
inductive Does (s : Session) (container : String) : Step → Chain → Prop where
  | getByName (name : String) :
    Does s container (.getByName name) ((Chain.getByName maker name).run (s.chain container)).2
  | getByType (ty : Ty) :
    Does s container (.getByType ty) ((Chain.getByType maker ty).run (s.chain container)).2
  | resolveNamedByType (ty : Ty) :
    Does s container (.resolveNamedByType ty)
      ((Chain.resolveNamedByType maker ty).run (s.chain container)).2
  | resolveDependency (d : Dependency) (requesting : String) :
    Does s container (.resolveDependency d requesting)
      ((Chain.resolveDependency maker d requesting).run (s.chain container)).2
  | resolveGiven (raw : Raw) (path : ArgPath) :
    Does s container (.resolve (.given raw) path)
      (s.resolver.resolve path raw (s.chain container)).2
  | resolveBound (name : String) (path : ArgPath) :
    Does s container (.resolve (.bound name) path)
      (s.resolver.resolve path (s.boundRaw name) (s.chain container)).2
  | create (name : String) (cell : Nat) (b : Blueprint) :
    Does s container (.create name cell b)
      (Chain.create (depthLimit + 1) name b (s.chain container)).2

section Covers

variable {s t : Session} {chain after : Chain} {home : Home} {bean : Managed}

/-- A bean noted in covered work was handed out by the session's container. -/
theorem Covers.noted (covers : t.Covers chain) (noted : chain.Notes home bean) {m : Member}
    (hm : t.member? home.container = some m) : bean ∈ m.container.handed home.name := by
  obtain ⟨c, hc, hid, hbean⟩ := noted
  obtain ⟨m', hm', history⟩ := covers c hc
  rw [hid, hm] at hm'
  rw [Option.some.inj hm']
  exact (history.filterMap _).subset hbean

/-- What was there earlier in covered work is covered. -/
theorem Covers.earlier (covers : t.Covers after) (continues : Chain.Each Continues chain after) :
    t.Covers chain := by
  have related : List.Forall₂ Continues (chain.own :: chain.ancestors)
      (after.own :: after.ancestors) := .cons continues.own continues.ancestors
  intro c hc
  obtain ⟨c', hc', became⟩ := Chain.becomes_of_mem related hc
  obtain ⟨m, hm, history⟩ := covers c' hc'
  exact ⟨m, became.id ▸ hm, became.history.trans history⟩

theorem ids_of_continues {cs cs' : List Container} (h : List.Forall₂ Continues cs cs') :
    cs'.map Container.id = cs.map Container.id := by
  induction h with
  | nil => rfl
  | cons hfirst _ ih => rw [List.map_cons, List.map_cons, hfirst.id, ih]

/-- What is covered stays covered. -/
theorem Covers.later (covers : s.Covers chain) (keeps : Keeps Serves s t) : t.Covers chain := by
  intro c hc
  obtain ⟨m, hm, history⟩ := covers c hc
  obtain ⟨m', hm', serves⟩ := keeps.later hm
  exact ⟨m', hm', history.trans serves.history⟩

end Covers

section Store

variable {s : Session} {container : String} {m : Member}

/-- The containers of a chain of the session are the session's. -/
theorem member?_of_mem_chain (hm : s.member? container = some m) {c : Container}
    (hc : c ∈ (s.chain container).own :: (s.chain container).ancestors) :
    ∃ m, s.member? c.id = some m ∧ m.container = c := by
  rw [chain] at hc
  cases hup : s.upwards s.members.length (some container) with
  | cons own ancestors =>
      rw [hup] at hc
      exact mem_upwards (hup ▸ hc)
  | nil =>
      rw [hup] at hc
      obtain rfl := List.mem_singleton.1 hc
      have hown := own_chain hm
      rw [chain, hup] at hown
      exact ⟨m, hm, hown.symm⟩

/-- Where identities differ, a container is found by its own. -/
theorem find?_id : ∀ {cs : List Container}, (cs.map Container.id).Nodup → ∀ {c : Container},
    c ∈ cs → (cs.find? fun d => d.id == c.id) = some c
  | [], _, _, hc => nomatch hc
  | first :: cs, hnodup, c, hc => by
      obtain ⟨hfirst, hrest⟩ := List.nodup_cons.1 hnodup
      rcases List.mem_cons.1 hc with rfl | hc
      · exact List.find?_cons_of_pos (beq_self_eq_true _)
      · have hne : first.id ≠ c.id := fun heq => hfirst (heq ▸ List.mem_map_of_mem hc)
        rw [List.find?_cons_of_neg (by simpa using hne)]
        exact find?_id hrest hc

/-- What a chain of the session has become is covered once it is stored. -/
theorem covers_store (acyclic : s.Acyclic) (hm : s.member? container = some m) {final : Chain}
    (continues : Chain.Each Continues (s.chain container) final) :
    (s.store final).Covers final := by
  have related : List.Forall₂ Continues ((s.chain container).own :: (s.chain container).ancestors)
      (final.own :: final.ancestors) := .cons continues.own continues.ancestors
  have hnodup : ((final.own :: final.ancestors).map Container.id).Nodup := by
    rw [ids_of_continues related]
    exact acyclic container
  intro c' hc'
  obtain ⟨c, hc, became⟩ := Chain.related_of_mem related hc'
  obtain ⟨member, hmember, rfl⟩ := member?_of_mem_chain hm hc
  refine ⟨stored final member, ?_, ?_⟩
  · rw [member?_of_members rfl (stored_id final), became.id, hmember]
    rfl
  · have kept : (stored final member).container = c' := by
      rw [stored, ← became.id, find?_id hnodup hc']
    exact kept ▸ List.prefix_refl _

end Store

/-! ### The work of a step -/

section Does

variable {s : Session} {container : String} {step : Step} {final : Chain}

theorem Does.continues (does : s.Does container step final) :
    Chain.Each Continues (s.chain container) final := by
  have hQ := workAlong_continues
  have hm : Chain.MakesAlong Continues maker := Chain.create_along hQ depthLimit
  have hr : s.resolver.GoesAlong (Chain.Each Continues) := Chain.goesAlong hQ hm rfl
  cases does with
  | getByName name => exact Chain.getByName_along hQ hm name _
  | getByType ty => exact Chain.getByType_along hQ hm ty _
  | resolveNamedByType ty => exact Chain.resolveNamedByType_along hQ hm ty _
  | resolveDependency d requesting => exact Chain.resolveDependency_along hQ hm d requesting _
  | resolveGiven raw path => exact Resolver.resolve_along hr path raw _
  | resolveBound name path => exact Resolver.resolve_along hr path (s.boundRaw name) _
  | create name cell b => exact Chain.create_along hQ (depthLimit + 1) name b _

/-- A step stores what its work has left; the blueprint that an object was made of is refreshed
then. -/
theorem Does.stores (does : s.Does container step final) :
    Keeps Serves (s.store final) ((perform container step).run s).2 := by
  cases does with
  | getByName | getByType | resolveNamedByType | resolveDependency | resolveGiven =>
      rw [perform, state_answer]
      exact refl_of (Keeps Serves) _
  | resolveBound name path =>
      rw [perform, state_answer]
      exact refl_of (Keeps Serves) (s.store _)
  | create name cell b =>
      rw [perform, state_answer]
      exact refresh_keeps stepAlong_serves cell _ (s.store _)

/-- The shelf has no part in the work of a step. -/
theorem Does.shelved (does : s.Does container step final) (shelf : Shelf) :
    ({ s with shelf } : Session).Does container step final := by
  have same : ({ s with shelf } : Session).chain container = s.chain container :=
    @chain_of_members s { s with shelf } rfl container
  cases does <;> rw [← same] <;> constructor

/-- **The work of a step is covered by the session after it.** -/
theorem covers_take {e : Entry} (does : s.Does e.container e.step final) (acyclic : s.Acyclic)
    {m : Member} (hm : s.member? e.container = some m) : (s.take e).2.Covers final :=
  (covers_store acyclic hm does.continues).later (does.shelved e.shelf).stores

end Does

end Wiring.Session
