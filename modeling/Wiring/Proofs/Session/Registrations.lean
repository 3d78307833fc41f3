import Mathlib.Data.List.Perm.Lattice
import Wiring.Proofs.Session.Blind
import Wiring.Proofs.Session.Coherence

/-!
# Sessions — the order of registrations

A registration enters something into the tables of one container (`Step.additions`), under a name of
its own among those of its kind (`Step.slot?`).  Up to the history, that is all it does
(`take_registration`), and what is entered in different places may be entered in any order
(`enter_comm`).

**No later script can tell in which order registrations were made** (`registrations_unordered`).
-/

namespace Wiring

namespace Table

variable {α : Type}

/-- The table with an entry more, if there is one. -/
def add (t : Table α) : Option (String × α) → Table α
  | some (k, v) => t.insert k v
  | none => t

theorem insert_comm (t : Table α) {k l : String} {v w : α} (h : k = l → v = w) :
    (t.insert k v).insert l w = (t.insert l w).insert k v := by
  refine ext_get? fun name => ?_
  rw [get?_insert, get?_insert, get?_insert, get?_insert]
  split
  next hl =>
    split
    next hk => rw [h (hk.symm.trans hl)]
    next => rfl
  next => rfl

/-- Entries under different names, or the same entries, are added in any order. -/
theorem add_comm (t : Table α) (x y : Option (String × α))
    (h : ∀ k v w, x = some (k, v) → y = some (k, w) → v = w) :
    (t.add x).add y = (t.add y).add x := by
  match x, y, h with
  | none, _, _ => rfl
  | some _, none, _ => rfl
  | some (k, v), some (l, w), h => exact t.insert_comm fun hkl => h k v w rfl (hkl ▸ rfl)

end Table

/-- Where a registration enters what it registers: among the definitions, the beans, the other names
of beans or the placeholders, and under which name. -/
inductive Slot where
  | definition (name : String)
  | bean (name : String)
  | byname (name : String)
  | placeholder (key : String)
  deriving DecidableEq

/-- Entries for the tables of a container, at most one for each. -/
structure Additions where
  definition : Option (String × Blueprint) := none
  bean : Option (String × Managed) := none
  byname : Option (String × String) := none
  type : Option String := none
  placeholder : Option (String × Value) := none

namespace Step

/-- Where the step enters something, if it is a registration.  A singleton and a null object are
both beans. -/
def slot? : Step → Option Slot
  | registerBlueprint name _ => some (.definition name)
  | registerSingleton name _ | registerNull name => some (.bean name)
  | registerAlias byname _ => some (.byname byname)
  | definePlaceholder key _ => some (.placeholder key)
  | _ => none

/-- What a registration enters; the class of a blueprint or of an object becomes a type. -/
def additions : Step → Additions
  | registerBlueprint name b => { definition := some (name, b), type := b.className }
  | registerSingleton name v =>
    { bean := some (name, .value v)
      type := match v with
        | .object o => some o.typeName
        | _ => none }
  | registerNull name => { bean := some (name, .null) }
  | registerAlias byname name => { byname := some (byname, name) }
  | definePlaceholder key v => { placeholder := some (key, v) }
  | _ => {}

variable {step : Step} {name : String}

theorem slot_of_definition {b : Blueprint} (h : step.additions.definition = some (name, b)) :
    step.slot? = some (.definition name) := by
  cases step <;> cases h
  rfl

theorem slot_of_bean {bean : Managed} (h : step.additions.bean = some (name, bean)) :
    step.slot? = some (.bean name) := by
  cases step <;> cases h <;> rfl

theorem slot_of_byname {target : String} (h : step.additions.byname = some (name, target)) :
    step.slot? = some (.byname name) := by
  cases step <;> cases h
  rfl

theorem slot_of_placeholder {v : Value} (h : step.additions.placeholder = some (name, v)) :
    step.slot? = some (.placeholder name) := by
  cases step <;> cases h
  rfl

end Step

namespace Container

/-- The container with entries more. -/
def add (c : Container) (a : Additions) : Container :=
  { c with
    definitions := c.definitions.add a.definition
    singletons := c.singletons.add a.bean
    aliases := c.aliases.add a.byname
    types := c.types.add (a.type.map fun name => (name, .named name))
    placeholders := c.placeholders.add a.placeholder }

/-- What two registrations enter in different places is entered in any order. -/
theorem add_comm (c : Container) {step step' : Step} (h : step.slot? ≠ step'.slot?) :
    (c.add step.additions).add step'.additions = (c.add step'.additions).add step.additions := by
  have apart : ∀ {slot}, step.slot? = some slot → step'.slot? = some slot → False :=
    fun hs hs' => h (hs.trans hs'.symm)
  have definitions := c.definitions.add_comm _ _ fun _ _ _ hs hs' =>
    (apart (Step.slot_of_definition hs) (Step.slot_of_definition hs')).elim
  have singletons := c.singletons.add_comm _ _ fun _ _ _ hs hs' =>
    (apart (Step.slot_of_bean hs) (Step.slot_of_bean hs')).elim
  have aliases := c.aliases.add_comm _ _ fun _ _ _ hs hs' =>
    (apart (Step.slot_of_byname hs) (Step.slot_of_byname hs')).elim
  have placeholders := c.placeholders.add_comm _ _ fun _ _ _ hs hs' =>
    (apart (Step.slot_of_placeholder hs) (Step.slot_of_placeholder hs')).elim
  -- a type may be entered by both: it is the same one then
  have types := c.types.add_comm (step.additions.type.map fun name => (name, .named name))
    (step'.additions.type.map fun name => (name, .named name)) fun _ _ _ hs hs' => by
      rw [Option.map_eq_some_iff] at hs hs'
      obtain ⟨_, -, hs⟩ := hs
      obtain ⟨_, -, hs'⟩ := hs'
      cases hs
      cases hs'
      rfl
  rw [add, add, add, add]
  dsimp only
  rw [definitions, singletons, aliases, types, placeholders]

end Container

namespace Session

variable {s s' : Session}

/-- The member with its container changed, if it has the identity. -/
def changed (id : String) (f : Container → Container) (m : Member) : Member :=
  if m.container.id = id then { m with container := f m.container } else m

/-- The session with every container of the identity changed. -/
def changeIn (id : String) (f : Container → Container) (s : Session) : Session :=
  { s with members := s.members.map (changed id f) }

/-- The session with what a registration enters. -/
def enter (s : Session) (e : Entry) : Session :=
  s.changeIn e.container fun c => c.add e.step.additions

/-- A change of a container changes every container of its identity. -/
theorem run_inContainer (h : s.Coherent) {f : Container → Container} (hf : ∀ c, (f c).id = c.id)
    (id : String) : ((inContainer id f).run s).2 = s.changeIn id f := by
  have hmap : s.members.map (stored ((s.chain id).modifyOwn f)) =
      s.members.map (changed id f) := by
    refine List.map_congr_left fun m hm => ?_
    have hown : (f (s.chain id).own).id = id := (hf _).trans (s.chain_id id)
    rw [stored_eq, latest, changed, Chain.modifyOwn, List.find?_cons]
    dsimp only
    rw [hown]
    split
    next heq =>
      obtain rfl := eq_of_beq heq
      rw [if_pos rfl, eq_of_coherent h List.mem_cons_self hm (s.chain_id _)]
      rfl
    next hne =>
      rw [if_neg fun heq => by rw [heq, beq_self_eq_true] at hne; cases hne]
      cases hfind : (s.chain id).ancestors.find? fun d => d.id == m.container.id with
      | none => rfl
      | some c =>
          have hid := List.find?_some hfind
          rw [eq_of_coherent h (List.mem_cons_of_mem _ (List.mem_of_find?_eq_some hfind)) hm
            (eq_of_beq hid)]
          rfl
  exact congrArg (fun members => { s with members }) hmap

/-- Changes of different containers, and changes that commute, are made in any order. -/
theorem changed_comm {f g : Container → Container} {id id' : String}
    (hf : ∀ c, (f c).id = c.id) (hg : ∀ c, (g c).id = c.id)
    (h : id = id' → ∀ c, g (f c) = f (g c)) (m : Member) :
    changed id' g (changed id f m) = changed id f (changed id' g m) := by
  unfold changed
  by_cases hid : m.container.id = id
  · by_cases hid' : m.container.id = id'
    · rw [if_pos hid, if_pos hid', if_pos ((hf _).trans hid'), if_pos ((hg _).trans hid)]
      dsimp only
      rw [h (hid.symm.trans hid')]
    · rw [if_pos hid, if_neg hid', if_neg fun heq => hid' ((hf _).symm.trans heq), if_pos hid]
  · by_cases hid' : m.container.id = id'
    · rw [if_neg hid, if_pos hid', if_neg fun heq => hid ((hg _).symm.trans heq)]
    · rw [if_neg hid, if_neg hid', if_neg hid]

/-- Registrations in different places are entered in any order. -/
theorem enter_comm (s : Session) {e e' : Entry}
    (h : (e.container, e.step.slot?) ≠ (e'.container, e'.step.slot?)) :
    (s.enter e).enter e' = (s.enter e').enter e := by
  have hmap : ∀ m, changed e'.container (·.add e'.step.additions)
      (changed e.container (·.add e.step.additions) m) =
      changed e.container (·.add e.step.additions)
        (changed e'.container (·.add e'.step.additions) m) :=
    changed_comm (fun _ => rfl) (fun _ => rfl) fun hid c =>
      c.add_comm fun hslot => h (Prod.ext hid hslot)
  rw [enter, enter, enter, enter, changeIn, changeIn, changeIn, changeIn]
  dsimp only
  rw [List.map_map, List.map_map]
  exact congrArg (fun members => { s with members }) (List.map_congr_left fun m _ => hmap m)

theorem enter_alike (h : s.Alike s') (e : Entry) : (s.enter e).Alike (s'.enter e) := by
  refine h.with_members (List.rel_map (fun m m' hm => ?_) h.members)
  obtain ⟨history, rfl⟩ := hm
  unfold changed
  dsimp only
  split
  · exact ⟨history, rfl⟩
  · exact ⟨history, rfl⟩

/-- What a registration does to its container is to enter something, up to the history. -/
theorem inContainer_alike (h : s.Coherent) {e : Entry} {f : Container → Container}
    (hf : ∀ c : Container, (c.add e.step.additions).Alike (f c)) :
    (s.enter e).Alike ((inContainer e.container f).run s).2 := by
  rw [run_inContainer h fun c => ?_]
  · refine ⟨_, s.shelf, rfl, List.forall₂_map_left_iff.2 (List.forall₂_map_right_iff.2 ?_)⟩
    refine List.forall₂_same.2 fun m _ => ?_
    unfold changed
    split
    · exact .of_container (hf m.container)
    · exact ⟨m.container.history, rfl⟩
  · obtain ⟨history, hc⟩ := hf c
    rw [hc]
    rfl

/-- **A registration enters something, and does nothing else** but to be noted in the history. -/
theorem take_registration (h : s.Coherent) {e : Entry} (registers : e.step.slot?.isSome) :
    (s.enter e).Alike (s.take e).2 := by
  obtain ⟨container, step, shelf⟩ := e
  have hs : Coherent { s with shelf } := h
  have alike : s.Alike { s with shelf } :=
    ⟨s.members, shelf, rfl, List.forall₂_same.2 fun m _ => ⟨m.container.history, rfl⟩⟩
  refine (enter_alike alike _).trans ?_
  cases step with
  | registerBlueprint name b =>
      refine inContainer_alike hs fun c => ?_
      rw [Step.additions, Container.add, Container.registerBlueprint]
      cases b.className with
      | none => exact ⟨_, rfl⟩
      | some className => exact ⟨_, rfl⟩
  | registerSingleton name v =>
      refine inContainer_alike hs fun c => ?_
      cases v with
      | object o => exact ⟨_, rfl⟩
      | _ => exact ⟨_, rfl⟩
  | registerNull name => exact inContainer_alike hs fun c => ⟨_, rfl⟩
  | registerAlias byname name => exact inContainer_alike hs fun c => ⟨_, rfl⟩
  | definePlaceholder key v => exact inContainer_alike hs fun c => ⟨c.history, rfl⟩
  | _ => cases registers

/-- Registrations enter what they register, one after the other. -/
theorem run_registrations {entries : List Entry} (h : s.Coherent)
    (registers : ∀ e ∈ entries, e.step.slot?.isSome) :
    (entries.foldl enter s).Alike (s.run entries) := by
  have folds : ∀ (entries : List Entry) {s s' : Session}, s.Alike s' →
      (entries.foldl enter s).Alike (entries.foldl enter s') := by
    intro entries
    induction entries with
    | nil => exact fun h => h
    | cons e entries ih => exact fun h => ih (enter_alike h e)
  induction entries generalizing s with
  | nil => exact .refl s
  | cons e entries ih =>
      rw [List.forall_mem_cons] at registers
      exact (folds entries (take_registration h registers.1)).trans
        (ih (h.reshaped (take_reshapes s e)) registers.2)

/-- **The order of registrations is not observable.**  After any run, blueprints, singletons, null
objects, other names and placeholders are registered, no two of a kind under the same name in the
same container, and no singleton and null object under the same name.  If they are registered in
another order, every later script has the same answers and makes the same objects on the way, and
the containers it ends in are the same but for their histories. -/
theorem registrations_unordered (containers : List (String × Option String)) (owner : String)
    (blueprint : Blueprint) (naming : Naming) (evaluation : Evaluation) (shelf : Shelf)
    (earlier registrations permuted later : List Entry)
    (registers : ∀ e ∈ registrations, e.step.slot?.isSome)
    (apart : (registrations.map fun e => (e.container, e.step.slot?)).Nodup)
    (perm : registrations.Perm permuted) :
    let s := (start containers owner blueprint naming evaluation shelf).run earlier
    (s.run registrations).answers later = (s.run permuted).answers later ∧
      ((s.run registrations).run later).Alike ((s.run permuted).run later) := by
  intro s
  have coherent : s.Coherent :=
    (coherent_start containers owner blueprint naming evaluation shelf).run earlier
  have comm : ∀ e ∈ registrations, ∀ e' ∈ registrations, ∀ s : Session,
      (s.enter e).enter e' = (s.enter e').enter e := by
    intro e he e' he' s
    by_cases heq : (e.container, e.step.slot?) = (e'.container, e'.step.slot?)
    · rw [List.inj_on_of_nodup_map apart he he' heq]
    · exact enter_comm s heq
  have entered : registrations.foldl enter s = permuted.foldl enter s :=
    perm.foldl_eq' comm s
  have alike : (s.run registrations).Alike (s.run permuted) :=
    (run_registrations coherent registers).symm.trans (entered ▸
      run_registrations coherent fun e he => registers e (perm.mem_iff.2 he))
  exact ⟨answers_of_alike later alike, run_alike later alike⟩

/-- A blueprint, a singleton, another name for it, a null object and a placeholder, registered in
one order and in the opposite one.  Then two beans of a type are found, one of them is made, and a
reference and a placeholder are resolved. -/
theorem registrations_unordered_of_five :
    let owner : Blueprint := {
      id := 1, className := some "O", scope := .singleton, dependsOn := [], synthetic := false
      resource := none, args := [], properties := [] }
    let registrations : List Entry := [
      { container := "main", step := .registerBlueprint "a" { owner with
        id := 2, className := some "T", args := [.reference { target := .name "c" }] } },
      { container := "main", step := .registerSingleton "b" (.object (.external "T" "one")) },
      { container := "main", step := .registerAlias "c" "b" },
      { container := "main", step := .registerNull "n" },
      { container := "main", step := .definePlaceholder "k" (.string "v") }]
    let later : List Entry := [
      { container := "main", step := .resolveNamedByType (.named "T") },
      { container := "main", step := .getByName "a" },
      { container := "main"
        step := .resolve (.given (.reference { target := .name "c" })) (.root "p") },
      { container := "main"
        step := .resolve (.given (.literal { text := some "${k}" })) (.root "q") }]
    let s := (start [("main", none)] "owner" owner).run []
    (∀ e ∈ registrations, e.step.slot?.isSome) ∧
      (registrations.map fun e => (e.container, e.step.slot?)).Nodup ∧
      ((s.run registrations).answers later).map (fun a => (a.1.toOption.isSome, a.2.length)) =
        [(false, 0), (true, 1), (true, 0), (true, 0)] ∧
      (s.run registrations).answers later = (s.run registrations.reverse).answers later := by
  intro owner registrations later s
  have registers : ∀ e ∈ registrations, e.step.slot?.isSome := by decide
  have apart : (registrations.map fun e => (e.container, e.step.slot?)).Nodup := by decide
  exact ⟨registers, apart, by decide +kernel,
    (registrations_unordered [("main", none)] "owner" owner {} .placeholders {} [] registrations
      registrations.reverse later registers apart registrations.reverse_perm.symm).1⟩

end Session

end Wiring
