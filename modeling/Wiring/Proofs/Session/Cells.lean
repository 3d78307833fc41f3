import Wiring.Proofs.Blueprint.Cells
import Wiring.Proofs.Resolver.Growth
import Wiring.Proofs.Resolver.Values
import Wiring.Proofs.Session.Coherence
import Wiring.Proofs.Session.Types

/-!
# Sessions — nested blueprints

A blueprint nested in a raw value may be nested in others as well, in the same cell, and whoever
makes an object of it makes it of a merged copy (`Chain.nested_copied`).  `s.Untouched s'` says that
the literals and arrays of all nested blueprints remember in `s'` what they remember in `s`, at any
depth: those of the bean's blueprint, of the bound raw values and of the definitions.

**Nothing that is resolved, looked up or made touches a nested blueprint**, whatever comes of it
(`nested_blueprints_untouched`).  An object may also be made of a blueprint that lies in a cell by
order of the session; this touches the blueprint, so it has to be one that is not shared
(`Unshared`).
-/

namespace Wiring

/-- The nested blueprints of each definition. -/
def Container.cells (c : Container) : Table (List (Nat × Blueprint)) :=
  c.definitions.map Raw.cellsBlueprint

/-- The nested blueprints of each definition of a container, and which container it is. -/
def Member.cells (m : Member) : String × Table (List (Nat × Blueprint)) :=
  (m.container.id, m.container.cells)

namespace Container

variable {c c' : Container}

theorem get?_cells (c : Container) (name : String) :
    c.cells.get? name = (c.definitions.get? name).map Raw.cellsBlueprint :=
  Table.get?_map _ _ name

/-- Growth leaves the blueprints nested in definitions as they are. -/
theorem Grows.cells (h : c.Grows c') : c'.cells = c.cells := by
  refine Table.ext_get? fun name => ?_
  rw [get?_cells, get?_cells]
  have hrel := h.definitions name
  generalize c.definitions.get? name = d, c'.definitions.get? name = d' at hrel
  cases hrel with
  | none => rfl
  | some hb => exact congrArg some (Raw.cellsBlueprint_of_grows hb)

/-- To refresh a cell that no definition uses changes none of them. -/
theorem refresh_of_unused {cell : Nat} (new : Blueprint)
    (h : ∀ definition ∈ c.cells.entries, Unused cell definition.2) :
    c.definitions.map (Raw.refreshBlueprint cell new) = c.definitions := by
  refine Table.ext_get? fun name => ?_
  rw [Table.get?_map]
  cases hb : c.definitions.get? name with
  | none => rfl
  | some b =>
      have hmem : (name, Raw.cellsBlueprint b) ∈ c.cells.entries :=
        Table.mem_entries.2 (by rw [get?_cells, hb]; rfl)
      exact congrArg some (Raw.refreshBlueprint_of_unused new (h _ hmem))

end Container

/-! ### Merged copies -/

namespace Chain

/-- The blueprints nested in a merged blueprint are those nested in the one it is a copy of, in the
same cells. -/
theorem cellsBlueprint_of_merge {proposed : String} {nested owner merged : Blueprint}
    (h : mergeBlueprint proposed nested owner = .ok merged) :
    Raw.cellsBlueprint merged = Raw.cellsBlueprint nested := by
  rw [merge_eq h]
  cases nested
  rfl

/-- **An object of a nested blueprint is made of a merged copy.**  The nested blueprint stays in its
place as it is.  What the literals and arrays of the copy come to remember goes with the copy: of
its making only the outcome and the chain remain.  The blueprints nested in the copy are shared with
the nested blueprint, and they remember nothing more. -/
theorem nested_copied {depth : Nat} {evaluation : Evaluation} {r : Resolver Chain}
    (hr : r.collaborators = collaborators (create depth) evaluation) {raw : Raw} {proposed : String}
    {b : Blueprint} (nested : r.inner? raw = some (proposed, b)) :
    (∀ path chain, (r.resolve path raw chain).1.node = raw) ∧
      ∀ merged inner chain, mergeBlueprint proposed b r.blueprint = .ok merged →
        let making := create depth inner merged chain
        (r.collaborators.createObject inner merged).run chain = (making.1.outcome, making.2) ∧
          merged.Grows making.1.node ∧
          Raw.cellsBlueprint making.1.node = Raw.cellsBlueprint b := by
  refine ⟨fun path chain => ?_, fun merged inner chain merges => ?_⟩
  · cases raw with
    | holder | nested => rfl
    | _ => cases nested
  · have grows : merged.Grows (create depth inner merged chain).1.node :=
      create_grows depth inner merged chain
    rw [hr]
    exact ⟨rfl, grows, (Raw.cellsBlueprint_of_grows grows).trans (cellsBlueprint_of_merge merges)⟩

end Chain

namespace Session

variable {s s' : Session}

/-- The nested blueprints are the same, with what their literals and arrays remember. -/
structure Untouched (s s' : Session) : Prop where
  owner : s'.blueprint = s.blueprint
  bound (name : String) : (s'.boundRaw name).cells = (s.boundRaw name).cells
  members : s'.members.map Member.cells = s.members.map Member.cells

instance : IsPreorder Session Untouched where
  refl _ := ⟨rfl, fun _ => rfl, rfl⟩
  trans _ _ _ h h' :=
    ⟨h'.owner.trans h.owner, fun name => (h'.bound name).trans (h.bound name),
      h'.members.trans h.members⟩

/-- No nested blueprint lies in the cell. -/
structure Unshared (s : Session) (cell : Nat) : Prop where
  owner : Unused cell (Raw.cellsBlueprint s.blueprint)
  bound (name : String) : Unused cell (s.boundRaw name).cells
  members : ∀ m ∈ s.members.map Member.cells, ∀ definition ∈ m.2.entries, Unused cell definition.2

theorem Untouched.unshared (h : Untouched s s') {cell : Nat} (unshared : s.Unshared cell) :
    s'.Unshared cell where
  owner := by rw [h.owner]; exact unshared.owner
  bound name := by rw [h.bound]; exact unshared.bound name
  members := by rw [h.members]; exact unshared.members

/-! ### Bound raw values -/

theorem boundRaw_bind_of_ne (s : Session) {name other : String} (h : other ≠ name) (raw : Raw) :
    (s.bind name raw).boundRaw other = s.boundRaw other := by
  rw [boundRaw, bind, Ordered.lookup_eq_find?, Ordered.find?_put, beq_false_of_ne h.symm, boundRaw,
    Ordered.lookup_eq_find?]
  rfl

theorem boundRaw_refresh (s : Session) (cell : Nat) (new : Blueprint) (name : String) :
    (s.refresh cell new).boundRaw name = (s.boundRaw name).refresh cell new := by
  rw [boundRaw, refresh, Table.lookup_map, boundRaw]
  cases s.bound.lookup name <;> rfl

theorem unused_boundRaw {cell : Nat} (h : ∀ b ∈ s.bound, Unused cell b.2.cells) (name : String) :
    Unused cell (s.boundRaw name).cells := by
  rw [boundRaw]
  cases hraw : s.bound.lookup name with
  | none => exact fun p hp => absurd hp List.not_mem_nil
  | some raw =>
      obtain ⟨before, after, hbound, -⟩ := List.lookup_eq_some_iff.1 hraw
      exact h (name, raw) (hbound ▸ List.mem_append_right before List.mem_cons_self)

/-! ### Changes of the session -/

/-- What a chain has become is stored. -/
theorem store_untouched (coherent : s.Coherent) {id : String} {chain : Chain}
    (each : Chain.Each Container.Grows (s.chain id) chain) : Untouched s (s.store chain) := by
  refine ⟨rfl, fun _ => rfl, ?_⟩
  rw [show (s.store chain).members = s.members.map (stored chain) from rfl, List.map_map]
  refine List.map_congr_left fun m hm => ?_
  have grows : m.container.Grows (latest chain m.container) :=
    latest_related Container.Grows.id coherent each hm
  rw [Function.comp_apply, stored_eq, Member.cells, Member.cells]
  dsimp only
  rw [grows.id, grows.cells]

theorem inChain_untouched {α : Type} {x : Action Chain α}
    (along : Along (Chain.Each Container.Grows) x.run) (coherent : s.Coherent) (id : String) :
    Untouched s ((inChain id x).run s).2 :=
  store_untouched coherent (along (s.chain id))

theorem bind_untouched (s : Session) {name : String} {raw : Raw}
    (h : raw.cells = (s.boundRaw name).cells) : Untouched s (s.bind name raw) := by
  refine ⟨rfl, fun other => ?_, rfl⟩
  by_cases hother : other = name
  · rw [hother, boundRaw_bind, h]
  · rw [boundRaw_bind_of_ne s hother]

/-- A cell in which no nested blueprint lies is refreshed. -/
theorem refresh_untouched {cell : Nat} (unshared : s.Unshared cell) (new : Blueprint) :
    Untouched s (s.refresh cell new) := by
  refine ⟨Raw.refreshBlueprint_of_unused new unshared.owner, fun name => ?_, ?_⟩
  · rw [boundRaw_refresh, Raw.refresh_of_unused new (unshared.bound name)]
  · rw [refresh, List.map_map]
    refine List.map_congr_left fun m hm => ?_
    have hmem : m.cells ∈ s.members.map Member.cells := List.mem_map_of_mem hm
    rw [Function.comp_apply, Member.cells, Container.cells]
    dsimp only
    rw [Container.refresh_of_unused new (unshared.members m.cells hmem)]
    rfl

/-! ### Steps -/

theorem run_create (container name : String) (cell : Nat) (b : Blueprint) (s : Session) :
    (create container name cell b).run s =
      ((Chain.build maker name b (s.chain container)).1.outcome,
        (s.store (Chain.build maker name b (s.chain container)).2).refresh cell
          (Chain.build maker name b (s.chain container)).1.node) := rfl

end Session

/-- The step resolves something, looks something up or makes an object, not of a blueprint that is
shared. -/
def Step.Works (s : Session) : Step → Prop
  | .resolve _ _ | .getByName _ | .getByType _ | .resolveNamedByType _ | .resolveDependency _ _
  | .unwrap _ _ _ => True
  | .create _ cell _ => s.Unshared cell
  | _ => False

namespace Session

variable {s s' : Session}

theorem Untouched.works (h : Untouched s s') {step : Step} (works : step.Works s) :
    step.Works s' := by
  cases step with
  | create name cell b => exact h.unshared works
  | _ => exact works

/-- A step of work touches no nested blueprint, whatever comes of it. -/
theorem perform_untouched (coherent : s.Coherent) (container : String) {step : Step}
    (works : step.Works s) : Untouched s ((perform container step).run s).2 := by
  have hQ := Container.workAlong_grows
  have hm : Chain.MakesAlong Container.Grows maker := Chain.create_along hQ depthLimit
  have resolves : ∀ (path : ArgPath) (raw : Raw),
      Untouched s (s.store (s.resolver.resolve path raw (s.chain container)).2) := fun path raw =>
    store_untouched coherent
      (Resolver.resolve_along (Chain.goesAlong hQ hm rfl) path raw (s.chain container))
  cases step with
  | resolve source path =>
      rw [perform, state_answer]
      cases source with
      | given raw => exact resolves path raw
      | bound name =>
          rw [run_resolve_bound]
          -- what is bound anew has the nested blueprints it had
          exact trans_of Untouched (resolves path _) (bind_untouched _
            (Raw.cells_of_grows (Resolver.resolve_grows path (s.boundRaw name) _)))
  | getByName name =>
      rw [perform, state_answer]
      exact inChain_untouched (Chain.getByName_along hQ hm name) coherent container
  | getByType ty =>
      rw [perform, state_answer]
      exact inChain_untouched (Chain.getByType_along hQ hm ty) coherent container
  | resolveNamedByType ty =>
      rw [perform, state_answer]
      exact inChain_untouched (Chain.resolveNamedByType_along hQ hm ty) coherent container
  | resolveDependency d requesting =>
      rw [perform, state_answer]
      exact inChain_untouched (Chain.resolveDependency_along hQ hm d requesting) coherent container
  | unwrap factory name postProcess =>
      rw [perform, state_answer]
      exact inChain_untouched (Chain.unwrapProduct_along hQ factory name postProcess) coherent
        container
  | create name cell b =>
      rw [perform, state_answer, run_create]
      have made := store_untouched coherent
        (Chain.create_succ_along hQ hm name b (s.chain container))
      exact trans_of Untouched made (refresh_untouched (made.unshared works) _)
  | _ => exact works.elim

/-- A step of work leaves the bound raw values as they are, but for the one it resolves. -/
theorem boundRaw_perform (container : String) {step : Step} (works : step.Works s) {name : String}
    (other : ∀ path, step ≠ .resolve (.bound name) path) :
    ((perform container step).run s).2.boundRaw name = s.boundRaw name := by
  cases step with
  | resolve source path =>
      rw [perform, state_answer]
      cases source with
      | given raw => rfl
      | bound resolved =>
          have hne : name ≠ resolved := by
            rintro rfl
            exact other path rfl
          rw [run_resolve_bound]
          exact boundRaw_bind_of_ne _ hne _
  | create name' cell b =>
      rw [perform, state_answer, run_create, boundRaw_refresh]
      exact Raw.refresh_of_unused _ (works.bound name)
  | getByName | getByType | resolveNamedByType | resolveDependency | unwrap =>
      rw [perform, state_answer]
      rfl
  | _ => exact works.elim

theorem take_untouched (coherent : s.Coherent) {e : Entry} (works : e.step.Works s) :
    Untouched s (s.take e).2 := by
  have shelved : Untouched s { s with shelf := e.shelf } := ⟨rfl, fun _ => rfl, rfl⟩
  exact trans_of Untouched shelved
    (perform_untouched (s := { s with shelf := e.shelf }) coherent e.container
      (shelved.works works))

theorem boundRaw_take {e : Entry} (works : e.step.Works s) {name : String}
    (other : ∀ path, e.step ≠ .resolve (.bound name) path) :
    (s.take e).2.boundRaw name = s.boundRaw name := by
  have shelved : Untouched s { s with shelf := e.shelf } := ⟨rfl, fun _ => rfl, rfl⟩
  exact boundRaw_perform e.container (shelved.works works) other

/-- Work touches no nested blueprint. -/
theorem run_untouched (coherent : s.Coherent) {entries : List Entry}
    (works : ∀ e ∈ entries, e.step.Works s) : Untouched s (s.run entries) := by
  induction entries generalizing s with
  | nil => exact refl_of Untouched s
  | cons e entries ih =>
      rw [List.forall_mem_cons] at works
      have first := take_untouched coherent works.1
      exact trans_of Untouched first (ih (coherent.reshaped (take_reshapes s e))
        fun e' he' => first.works (works.2 e' he'))

/-- Work leaves the bound raw values as they are, but for those it resolves. -/
theorem boundRaw_run (coherent : s.Coherent) {entries : List Entry}
    (works : ∀ e ∈ entries, e.step.Works s) {name : String}
    (other : ∀ e ∈ entries, ∀ path, e.step ≠ .resolve (.bound name) path) :
    (s.run entries).boundRaw name = s.boundRaw name := by
  induction entries generalizing s with
  | nil => rfl
  | cons e entries ih =>
      rw [List.forall_mem_cons] at works other
      have first := take_untouched coherent works.1
      exact (ih (coherent.reshaped (take_reshapes s e))
        (fun e' he' => first.works (works.2 e' he')) other.2).trans (boundRaw_take works.1 other.1)

/-- **Nested blueprints are never written to.**  After any run, whatever is resolved, looked up and
made, an object by order of the session only of a blueprint that is not shared, and whether or not
it succeeds: the nested blueprints of the bean, of the bound raw values and of the definitions
remember what they did before, at any depth.  A bound raw value that is not itself resolved is left
as it is, also when it shares nested blueprints with one that is.

The raw value that is resolved, in any state of the containers, has the same nested blueprints
afterwards, and so does the blueprint of which an object is made. -/
theorem nested_blueprints_untouched (containers : List (String × Option String)) (owner : String)
    (blueprint : Blueprint) (naming : Naming) (evaluation : Evaluation) (shelf : Shelf)
    (earlier entries : List Entry)
    (works : ∀ e ∈ entries, e.step.Works
      ((start containers owner blueprint naming evaluation shelf).run earlier)) :
    let s := (start containers owner blueprint naming evaluation shelf).run earlier
    Untouched s (s.run entries) ∧
      (∀ name, (∀ e ∈ entries, ∀ path, e.step ≠ .resolve (.bound name) path) →
        (s.run entries).boundRaw name = s.boundRaw name) ∧
      (∀ (r : Resolver Chain) (path : ArgPath) (raw : Raw) (chain : Chain),
        (r.resolve path raw chain).1.node.cells = raw.cells) ∧
      ∀ (depth : Nat) (name : String) (b : Blueprint) (chain : Chain),
        Raw.cellsBlueprint (Chain.create depth name b chain).1.node = Raw.cellsBlueprint b := by
  intro s
  have coherent : s.Coherent :=
    (coherent_start containers owner blueprint naming evaluation shelf).run earlier
  refine ⟨run_untouched coherent works, fun name => boundRaw_run coherent works, ?_, ?_⟩
  · intro r path raw chain
    exact Raw.cells_of_grows (Resolver.resolve_grows path raw chain)
  · intro depth name b chain
    exact Raw.cellsBlueprint_of_grows (Chain.create_grows depth name b chain)

/-- A blueprint is nested in a definition and in two bound raw values, one of which is resolved.
The definition's bean is made, and an object of another blueprint.  The raw value that is resolved
comes to know that its own literal is dynamic, the other one is left as it is. -/
theorem nested_blueprints_untouched_of_shared :
    let owner : Blueprint := {
      id := 1, className := some "O", scope := .singleton, dependsOn := [], synthetic := false
      resource := none, args := [], properties := [] }
    let literal : Raw := .literal { text := some "${k}" }
    let inner : Blueprint := { owner with id := 2, properties := [("p", literal)] }
    let earlier : List Entry := [
      { container := "main", step := .definePlaceholder "k" (.string "v") },
      { container := "main", step := .registerBlueprint "d" { owner with
        id := 3, args := [.nested 1 inner] } },
      { container := "main", step := .bind "one" (.list [.nested 1 inner, literal]) },
      { container := "main", step := .bind "two" (.nested 1 inner) }]
    let entries : List Entry := [
      { container := "main", step := .resolve (.bound "one") (.root "a") },
      { container := "main", step := .getByName "d" },
      { container := "main", step := .create "x" 2 { owner with id := 4, args := [literal] } }]
    let s := (start [("main", none)] "owner" owner).run earlier
    (∀ e ∈ entries, e.step.Works s) ∧
      ((s.run entries).chain "main").own.created = ["(inner)#2", "d", "(inner)#2#1", "x"] ∧
      (((s.run entries).boundRaw "one").at? [1]).any Raw.isDynamic ∧
      (((s.run entries).boundRaw "one").at? [0, 0]).any Raw.isDynamic = false ∧
      (s.run entries).boundRaw "two" = s.boundRaw "two" ∧
      Untouched s (s.run entries) := by
  intro owner literal inner earlier entries s
  have unshared : s.Unshared 2 := by
    refine ⟨?_, unused_boundRaw ?_, ?_⟩
    · exact List.forall_mem_nil _
    · decide +kernel
    · decide +kernel
  have works : ∀ e ∈ entries, e.step.Works s := by
    intro e he
    simp only [entries, List.mem_cons, List.not_mem_nil, or_false] at he
    rcases he with rfl | rfl | rfl
    · trivial
    · trivial
    · exact unshared
  have others : ∀ e ∈ entries, ∀ path, e.step ≠ .resolve (.bound "two") path := by
    intro e he path
    simp only [entries, List.mem_cons, List.not_mem_nil, or_false] at he
    rcases he with rfl | rfl | rfl <;> simp
  have untouched := nested_blueprints_untouched [("main", none)] "owner" owner {} .placeholders {}
    earlier entries works
  exact ⟨works, by decide +kernel, by decide +kernel, by decide +kernel,
    untouched.2.1 "two" others, untouched.1⟩

/-- An object made of the shared blueprint itself does touch it, wherever it is nested. -/
example :
    let b : Blueprint := {
      id := 1, className := some "O", scope := .singleton, dependsOn := [], synthetic := false
      resource := none, args := [], properties := [("p", .literal { text := some "${k}" })] }
    let s := (start [("main", none)] "owner" b).run [
      { container := "main", step := .definePlaceholder "k" (.string "v") },
      { container := "main", step := .bind "two" (.nested 1 b) },
      { container := "main", step := .create "x" 1 b }]
    ((s.boundRaw "two").at? [0]).any Raw.isDynamic := by
  decide +kernel

end Session

end Wiring
