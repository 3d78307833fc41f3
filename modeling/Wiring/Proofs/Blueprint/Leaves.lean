import Mathlib.Data.List.Flatten
import Wiring.Proofs.Blueprint.Cells
import Wiring.Proofs.Resolver.Leaves

/-!
# Blueprints — leaves at any depth

`Raw.leaves` stops at nested blueprints; `BlueprintOf.deepLeaves` lists what stands in those too.
The nested blueprints of a raw value are those of its leaves (`cells_eq_leaves`), so a nested
blueprint has fewer of them than the blueprint it is a leaf of (`cells_lt_of_leaf`), and none of its
leaves is new (`deepLeaves_of_leaf`).  **A leaf of a grown blueprint has grown from one of the
blueprint's** (`deepLeaves_of_grows`).
-/

namespace Wiring

namespace Raw

/-! ### The nested blueprints of leaves -/

mutual

/-- The nested blueprints of a raw value are those of its leaves. -/
theorem cells_eq_leaves : ∀ raw : Raw, raw.cells = raw.leaves.flatMap cells
  | null | literal _ | value _ | reference _ | nameReference _ | dependency _ | properties _ => rfl
  | holder _ _ _ _ | nested _ _ => (List.append_nil _).symm
  | array _ _ es | list es | set es => by
      rw [cells, leaves, cellsAll_eq_leaves es]
  | map es => by rw [cells, leaves, cellsEntries_eq_leaves es]

theorem cellsAll_eq_leaves : ∀ es : List Raw, cellsAll es = (leavesAll es).flatMap cells
  | [] => rfl
  | e :: es => by
      rw [cellsAll, leavesAll, List.flatMap_append, cells_eq_leaves e, cellsAll_eq_leaves es]

theorem cellsEntries_eq_leaves : ∀ es : List (Raw × Raw),
    cellsEntries es = (leavesEntries es).flatMap cells
  | [] => rfl
  | (k, v) :: es => by
      rw [cellsEntries, leavesEntries, List.flatMap_append, List.flatMap_append, cells_eq_leaves k,
        cells_eq_leaves v, cellsEntries_eq_leaves es]

end

theorem cells_sublist_of_leaf {raw leaf : Raw} (hleaf : leaf ∈ raw.leaves) :
    leaf.cells.Sublist raw.cells := by
  rw [cells_eq_leaves raw, List.flatMap_def]
  exact List.sublist_flatten_of_mem (List.mem_map_of_mem hleaf)

theorem cellsBlueprint_eq_leaves (b : Blueprint) : cellsBlueprint b = b.leaves.flatMap cells := by
  obtain ⟨id, className, scope, dependsOn, synthetic, resource, args, properties⟩ := b
  rw [cellsBlueprint, cellsProperties_eq, cellsAll_eq_leaves, cellsAll_eq_leaves,
    BlueprintOf.leaves, List.flatMap_append]

/-! ### The leaves of what has grown -/

mutual

/-- A leaf of a grown raw value has grown from one of the raw value's. -/
theorem leaf_of_grows : ∀ {raw left : Raw}, raw.Grows left → ∀ leaf ∈ left.leaves,
    ∃ origin ∈ raw.leaves, origin.Grows leaf
  | null, left, h, leaf, hleaf | value _, left, h, leaf, hleaf | reference _, left, h, leaf, hleaf
  | nameReference _, left, h, leaf, hleaf | dependency _, left, h, leaf, hleaf
  | holder _ _ _ _, left, h, leaf, hleaf | nested _ _, left, h, leaf, hleaf => by
      cases h
      exact ⟨leaf, hleaf, .refl leaf⟩
  | literal _, left, h, leaf, hleaf | properties _, left, h, leaf, hleaf => by
      cases left <;> first
        | exact h.elim
        | rw [List.mem_singleton.1 hleaf]; exact ⟨_, List.mem_cons_self, h⟩
  | array _ _ es, left, h, leaf, hleaf => by
      cases left with
      | array _ _ fs => exact leafAll_of_grows h.2.2 leaf hleaf
      | _ => exact h.elim
  | list es, left, h, leaf, hleaf => by
      cases left with
      | list fs =>
          rw [Grows] at h
          exact leafAll_of_grows h leaf hleaf
      | _ => exact h.elim
  | set es, left, h, leaf, hleaf => by
      cases left with
      | set fs =>
          rw [Grows] at h
          exact leafAll_of_grows h leaf hleaf
      | _ => exact h.elim
  | map es, left, h, leaf, hleaf => by
      cases left with
      | map fs =>
          rw [Grows] at h
          exact leafEntries_of_grows h leaf hleaf
      | _ => exact h.elim

theorem leafAll_of_grows : ∀ {es fs : List Raw}, GrowsAll es fs → ∀ leaf ∈ leavesAll fs,
    ∃ origin ∈ leavesAll es, origin.Grows leaf
  | [], _, h, leaf, hleaf => by cases h; cases hleaf
  | _ :: _, [], h, _, _ => h.elim
  | _ :: _, _ :: _, ⟨he, h⟩, leaf, hleaf => by
      rcases List.mem_append.1 hleaf with hleaf | hleaf
      · obtain ⟨origin, horigin, grows⟩ := leaf_of_grows he leaf hleaf
        exact ⟨origin, List.mem_append_left _ horigin, grows⟩
      · obtain ⟨origin, horigin, grows⟩ := leafAll_of_grows h leaf hleaf
        exact ⟨origin, List.mem_append_right _ horigin, grows⟩

theorem leafEntries_of_grows : ∀ {es fs : List (Raw × Raw)}, GrowsEntries es fs →
    ∀ leaf ∈ leavesEntries fs, ∃ origin ∈ leavesEntries es, origin.Grows leaf
  | [], _, h, leaf, hleaf => by cases h; cases hleaf
  | _ :: _, [], h, _, _ => h.elim
  | (_, _) :: _, (_, _) :: _, ⟨hk, hv, h⟩, leaf, hleaf => by
      rcases List.mem_append.1 hleaf with hleaf | hleaf
      · obtain ⟨origin, horigin, grows⟩ := leaf_of_grows hk leaf hleaf
        exact ⟨origin, List.mem_append_left _ horigin, grows⟩
      rcases List.mem_append.1 hleaf with hleaf | hleaf
      · obtain ⟨origin, horigin, grows⟩ := leaf_of_grows hv leaf hleaf
        exact ⟨origin, List.mem_append_right _ (List.mem_append_left _ horigin), grows⟩
      · obtain ⟨origin, horigin, grows⟩ := leafEntries_of_grows h leaf hleaf
        exact ⟨origin, List.mem_append_right _ (List.mem_append_right _ horigin), grows⟩

end

end Raw

namespace BlueprintOf

/-- What stands in a blueprint's arguments and properties, at any depth: its own leaves, and those
of the blueprints nested in it. -/
def deepLeaves (b : Blueprint) : List Raw :=
  b.leaves ++ (Raw.cellsBlueprint b).flatMap fun cell => cell.2.leaves

variable {b nested left : Blueprint} {leaf : Raw} {cell : Nat}

theorem cells_sublist_of_leaf (hleaf : leaf ∈ b.leaves) :
    leaf.cells.Sublist (Raw.cellsBlueprint b) := by
  rw [Raw.cellsBlueprint_eq_leaves, List.flatMap_def]
  exact List.sublist_flatten_of_mem (List.mem_map_of_mem hleaf)

/-- Fewer blueprints are nested in a nested blueprint than in the one it is a leaf of. -/
theorem cells_lt_of_leaf (hleaf : leaf ∈ b.leaves)
    (nests : leaf.cells = (cell, nested) :: Raw.cellsBlueprint nested) :
    (Raw.cellsBlueprint nested).length < (Raw.cellsBlueprint b).length := by
  have hlength := (cells_sublist_of_leaf hleaf).length_le
  rwa [nests, List.length_cons] at hlength

/-- What stands in a nested blueprint stands in the one it is a leaf of. -/
theorem deepLeaves_of_leaf (hleaf : leaf ∈ b.leaves)
    (nests : leaf.cells = (cell, nested) :: Raw.cellsBlueprint nested) :
    nested.deepLeaves ⊆ b.deepLeaves := by
  have inside := (cells_sublist_of_leaf hleaf).flatMap fun cell => cell.2.leaves
  rw [nests, List.flatMap_cons] at inside
  exact List.subset_append_of_subset_right _ inside.subset

/-- **A leaf of a grown blueprint has grown from one of the blueprint's**, at any depth. -/
theorem deepLeaves_of_grows (h : b.Grows left) (hleaf : leaf ∈ left.deepLeaves) :
    ∃ origin ∈ b.deepLeaves, origin.Grows leaf := by
  rcases List.mem_append.1 hleaf with own | nested
  · rcases List.mem_append.1 own with argument | property
    · obtain ⟨origin, horigin, grows⟩ := Raw.leafAll_of_grows h.args leaf argument
      exact ⟨origin, List.mem_append_left _ (List.mem_append_left _ horigin), grows⟩
    · obtain ⟨origin, horigin, grows⟩ :=
        Raw.leafAll_of_grows (Raw.growsAll_of_growsProperties h.properties) leaf property
      exact ⟨origin, List.mem_append_left _ (List.mem_append_right _ horigin), grows⟩
  · rw [Raw.cellsBlueprint_of_grows h] at nested
    exact ⟨leaf, List.mem_append_right _ nested, .refl leaf⟩

end BlueprintOf

end Wiring
