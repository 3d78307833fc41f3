import Wiring.Proofs.Container.Fallback
import Wiring.Proofs.Resolver.Parts

/-!
# Containers — injection points at any depth

`Raw.dependencies` lists the injection points of a raw value, those in nested blueprints included.
**Growth leaves them as they are** (`dependencies_of_grows`), so a chain without any
(`Chain.Uninjected`) stays without any, whatever is looked up and made in it.
-/

namespace Wiring

namespace Raw

/-! ### Growth -/

mutual

/-- Growth leaves the injection points as they are. -/
theorem injectionPoints_of_grows : ∀ {raw left : Raw}, raw.Grows left →
    left.injectionPoints = raw.injectionPoints
  | null, _, h | value _, _, h | reference _, _, h | nameReference _, _, h | dependency _, _, h
  | holder _ _ _ _, _, h | nested _ _, _, h => by cases h; rfl
  | literal _, left, h | properties _, left, h => by
      cases left <;> first | rfl | exact h.elim
  | array _ _ es, left, h => by
      cases left with
      | array _ _ fs => exact injectionPointsAll_of_grows h.2.2
      | _ => exact h.elim
  | list es, left, h => by
      cases left with
      | list fs =>
          rw [Grows] at h
          exact injectionPointsAll_of_grows h
      | _ => exact h.elim
  | set es, left, h => by
      cases left with
      | set fs =>
          rw [Grows] at h
          exact injectionPointsAll_of_grows h
      | _ => exact h.elim
  | map es, left, h => by
      cases left with
      | map fs =>
          rw [Grows] at h
          exact injectionPointsEntries_of_grows h
      | _ => exact h.elim

theorem injectionPointsAll_of_grows : ∀ {es fs : List Raw}, GrowsAll es fs →
    injectionPointsAll fs = injectionPointsAll es
  | [], _, h => by cases h; rfl
  | _ :: _, [], h => h.elim
  | _ :: _, _ :: _, ⟨he, h⟩ => by
      rw [injectionPointsAll, injectionPointsAll, injectionPoints_of_grows he,
        injectionPointsAll_of_grows h]

theorem injectionPointsEntries_of_grows : ∀ {es fs : List (Raw × Raw)}, GrowsEntries es fs →
    injectionPointsEntries fs = injectionPointsEntries es
  | [], _, h => by cases h; rfl
  | _ :: _, [], h => h.elim
  | (_, _) :: _, (_, _) :: _, ⟨hk, hv, h⟩ => by
      rw [injectionPointsEntries, injectionPointsEntries, injectionPoints_of_grows hk,
        injectionPoints_of_grows hv, injectionPointsEntries_of_grows h]

end

/-! ### Injection points at any depth -/

/-- The injection points of a raw value, at any depth: its own, and those of the blueprints nested
in it. -/
def dependencies (raw : Raw) : List Dependency :=
  raw.injectionPoints ++ raw.cells.flatMap fun cell => cell.2.injectionPoints

end Raw

namespace BlueprintOf

/-- The injection points of a blueprint, at any depth. -/
def dependencies (b : Blueprint) : List Dependency :=
  b.injectionPoints ++ (Raw.cellsBlueprint b).flatMap fun cell => cell.2.injectionPoints

/-- **Growth leaves the injection points as they are**, at any depth. -/
theorem dependencies_of_grows {b left : Blueprint} (h : b.Grows left) :
    left.dependencies = b.dependencies := by
  rw [dependencies, dependencies, Raw.cellsBlueprint_of_grows h, injectionPoints, injectionPoints,
    Raw.injectionPointsAll_of_grows h.args,
    Raw.injectionPointsAll_of_grows (Raw.growsAll_of_growsProperties h.properties)]

theorem injectionPoints_of_dependencies {b : Blueprint} (h : b.dependencies = []) :
    b.injectionPoints = [] :=
  (List.append_eq_nil_iff.1 h).1

end BlueprintOf

/-! ### What stands in a raw value or in a blueprint -/

namespace Raw

variable {part raw : Raw} {b : Blueprint}

theorem PartOf.dependencies (h : part.PartOf raw) (none : raw.dependencies = []) :
    part.dependencies = [] := by
  rw [Raw.dependencies, List.append_eq_nil_iff, List.flatMap_eq_nil_iff] at none ⊢
  exact ⟨List.subset_nil.1 (none.1 ▸ h.points), fun cell hcell => none.2 cell (h.cells hcell)⟩

/-- The arguments and properties of a blueprint are part of it. -/
theorem dependencies_of_blueprint (h : b.dependencies = []) :
    (list b.args).dependencies = [] ∧ (list (b.properties.map Prod.snd)).dependencies = [] := by
  obtain ⟨id, className, scope, dependsOn, synthetic, resource, args, properties⟩ := b
  rw [BlueprintOf.dependencies, BlueprintOf.injectionPoints, cellsBlueprint, cellsProperties_eq,
    List.flatMap_append] at h
  simp only [List.append_eq_nil_iff] at h
  obtain ⟨⟨hargs, hproperties⟩, hargs', hproperties'⟩ := h
  exact ⟨List.append_eq_nil_iff.2 ⟨hargs, hargs'⟩,
    List.append_eq_nil_iff.2 ⟨hproperties, hproperties'⟩⟩

theorem dependencies_of_arg (h : b.dependencies = []) (hraw : raw ∈ b.args) :
    raw.dependencies = [] :=
  (partOf_of_mem hraw).dependencies (dependencies_of_blueprint h).1

theorem dependencies_of_property {name : String} (h : b.dependencies = [])
    (hraw : (name, raw) ∈ b.properties) : raw.dependencies = [] :=
  (partOf_of_mem (List.mem_map_of_mem hraw)).dependencies (dependencies_of_blueprint h).2

end Raw

/-- A nested blueprint has no injection points that the raw value has not. -/
theorem Resolver.dependencies_of_inner {σ : Type} {r : Resolver σ} {raw : Raw} {proposed : String}
    {b : Blueprint} (inner : r.inner? raw = some (proposed, b)) (h : raw.dependencies = []) :
    b.dependencies = [] := by
  have cells : ∃ cell, raw.cells = (cell, b) :: Raw.cellsBlueprint b := by
    cases raw with
    | holder _ _ cell _ | nested cell _ => cases inner; exact ⟨cell, rfl⟩
    | _ => cases inner
  obtain ⟨cell, hcells⟩ := cells
  rw [Raw.dependencies, hcells, List.flatMap_cons] at h
  exact (List.append_eq_nil_iff.1 h).2

namespace Chain

theorem dependencies_of_merge {name : String} {nested owner merged : Blueprint}
    (h : mergeBlueprint name nested owner = .ok merged) :
    merged.dependencies = nested.dependencies := by
  rw [merge_eq h]
  cases nested
  rfl

end Chain

/-! ### Containers without injection points -/

/-- No definition of the container has an injection point, at any depth. -/
def Container.Uninjected (c : Container) : Prop :=
  ∀ name b, c.definitions.get? name = some b → b.dependencies = []

theorem Container.uninjected_empty (id : String) : ({ id } : Container).Uninjected := nofun

theorem Container.Uninjected.registerBlueprint {c : Container} {b : Blueprint} (h : c.Uninjected)
    (name : String) (hb : b.dependencies = []) : (c.registerBlueprint name b).Uninjected := by
  intro other blueprint hother
  have hother : (c.definitions.insert name b).get? other = some blueprint := by
    unfold Container.registerBlueprint at hother
    split at hother <;> exact hother
  rw [Table.get?_insert] at hother
  split at hother
  · cases hother
    exact hb
  · exact h other blueprint hother

theorem Container.Uninjected.of_grows {c c' : Container} (h : c.Uninjected) (grows : c.Grows c') :
    c'.Uninjected := by
  intro name left hleft
  obtain ⟨b, hdefined, hgrows⟩ := grows.exists_definition hleft
  exact (BlueprintOf.dependencies_of_grows hgrows).trans (h name b hdefined)

namespace Chain

/-- No definition of the chain's containers has an injection point, at any depth. -/
def Uninjected (chain : Chain) : Prop :=
  ∀ c ∈ chain.own :: chain.ancestors, c.Uninjected

namespace Uninjected

variable {chain chain' : Chain}

theorem above {up : Container} {rest : List Container} (h : chain.Uninjected)
    (ancestors : chain.ancestors = up :: rest) : Uninjected ⟨up, rest⟩ := fun c hc =>
  h c (List.mem_cons_of_mem _ (ancestors ▸ hc))

theorem pendingIn {b : Blueprint} : ∀ {ancestors : List Container} {c : Container} {name : String},
    (∀ c' ∈ c :: ancestors, c'.Uninjected) → Chain.pendingIn c ancestors name = some b →
      b.dependencies = []
  | ancestors, c, name, h, pending => by
      obtain ⟨hc, hancestors⟩ := List.forall_mem_cons.1 h
      unfold Chain.pendingIn at pending
      split at pending
      · cases pending
      next hb => cases pending; exact hc _ _ hb
      · cases ancestors with
        | nil => cases pending
        | cons up rest => exact Uninjected.pendingIn hancestors pending

/-- A bean that is still to be made is made of a blueprint without injection points. -/
theorem pending {name : String} {b : Blueprint} (h : chain.Uninjected)
    (pending : chain.pending name = some b) : b.dependencies = [] :=
  pendingIn h pending

theorem forall_mem_of_forall₂ {cs cs' : List Container} (grow : List.Forall₂ Container.Grows cs cs')
    (h : ∀ c ∈ cs, c.Uninjected) : ∀ c ∈ cs', c.Uninjected := by
  induction grow with
  | nil => exact h
  | cons hgrows _ ih =>
      obtain ⟨hc, hcs⟩ := List.forall_mem_cons.1 h
      exact List.forall_mem_cons.2 ⟨hc.of_grows hgrows, ih hcs⟩

/-- **A chain without injection points stays without any** when its containers grow. -/
theorem of_grows (h : chain.Uninjected) (grows : Each Container.Grows chain chain') :
    chain'.Uninjected :=
  forall_mem_of_forall₂ (.cons grows.own grows.ancestors) h

end Uninjected

end Chain

end Wiring
