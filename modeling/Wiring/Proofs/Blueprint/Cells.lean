import Wiring.Blueprint.Sharing
import Wiring.Proofs.Blueprint.Growth

/-!
# Blueprints — nested blueprints

`Raw.cells` lists the nested blueprints of a raw value, each with its cell and with what its
literals and arrays remember, at any depth: a nested blueprint is followed by those nested in it.

**Growth leaves the nested blueprints as they are** (`cells_of_grows`).  To refresh a cell changes
nothing where the cell is not used (`refresh_of_unused`).
-/

namespace Wiring

/-- The cell is none of those listed. -/
def Unused (cell : Nat) (cells : List (Nat × Blueprint)) : Prop :=
  ∀ p ∈ cells, p.1 ≠ cell

instance (cell : Nat) (cells : List (Nat × Blueprint)) : Decidable (Unused cell cells) :=
  inferInstanceAs (Decidable (∀ p ∈ cells, p.1 ≠ cell))

namespace Raw

mutual

/-- The nested blueprints of a raw value, at any depth, each with its cell. -/
def cells : Raw → List (Nat × Blueprint)
  | holder _ _ cell b => (cell, b) :: cellsBlueprint b
  | nested cell b => (cell, b) :: cellsBlueprint b
  | array _ _ es => cellsAll es
  | list es => cellsAll es
  | set es => cellsAll es
  | map es => cellsEntries es
  | _ => []
termination_by structural raw => raw

/-- The blueprints nested in a blueprint. -/
def cellsBlueprint : BlueprintOf Raw → List (Nat × Blueprint)
  | ⟨_, _, _, _, _, _, args, props⟩ => cellsAll args ++ cellsProperties props
termination_by structural b => b

/-- The nested blueprints of elements. -/
def cellsAll : List Raw → List (Nat × Blueprint)
  | [] => []
  | e :: es => cells e ++ cellsAll es
termination_by structural es => es

/-- The nested blueprints of keys and values. -/
def cellsEntries : List (Raw × Raw) → List (Nat × Blueprint)
  | [] => []
  | (k, v) :: es => cells k ++ (cells v ++ cellsEntries es)
termination_by structural es => es

/-- The nested blueprints of properties. -/
def cellsProperties : List (String × Raw) → List (Nat × Blueprint)
  | [] => []
  | (_, r) :: ps => cells r ++ cellsProperties ps
termination_by structural ps => ps

end

theorem cellsProperties_eq : ∀ ps : List (String × Raw),
    cellsProperties ps = cellsAll (ps.map Prod.snd)
  | [] => rfl
  | (_, r) :: ps => by rw [cellsProperties, cellsProperties_eq ps]; rfl

/-! ### Growth -/

mutual

/-- **Growth leaves the nested blueprints as they are.** -/
theorem cells_of_grows : ∀ {raw left : Raw}, raw.Grows left → left.cells = raw.cells
  | null, _, h | value _, _, h | reference _, _, h | nameReference _, _, h | dependency _, _, h
  | holder _ _ _ _, _, h | nested _ _, _, h => by cases h; rfl
  | literal _, left, h | properties _, left, h => by
      cases left <;> first | rfl | exact h.elim
  | array _ _ es, left, h => by
      cases left with
      | array _ _ fs => exact cellsAll_of_grows h.2.2
      | _ => exact h.elim
  | list es, left, h => by
      cases left with
      | list fs =>
          rw [Grows] at h
          exact cellsAll_of_grows h
      | _ => exact h.elim
  | set es, left, h => by
      cases left with
      | set fs =>
          rw [Grows] at h
          exact cellsAll_of_grows h
      | _ => exact h.elim
  | map es, left, h => by
      cases left with
      | map fs =>
          rw [Grows] at h
          exact cellsEntries_of_grows h
      | _ => exact h.elim

theorem cellsAll_of_grows : ∀ {es fs : List Raw}, GrowsAll es fs → cellsAll fs = cellsAll es
  | [], _, h => by cases h; rfl
  | _ :: _, [], h => h.elim
  | _ :: _, _ :: _, ⟨he, h⟩ => by
      rw [cellsAll, cellsAll, cells_of_grows he, cellsAll_of_grows h]

theorem cellsEntries_of_grows : ∀ {es fs : List (Raw × Raw)}, GrowsEntries es fs →
    cellsEntries fs = cellsEntries es
  | [], _, h => by cases h; rfl
  | _ :: _, [], h => h.elim
  | (_, _) :: _, (_, _) :: _, ⟨hk, hv, h⟩ => by
      rw [cellsEntries, cellsEntries, cells_of_grows hk, cells_of_grows hv,
        cellsEntries_of_grows h]

end

theorem cellsProperties_of_grows : ∀ {ps qs : List (String × Raw)}, GrowsProperties ps qs →
    cellsProperties qs = cellsProperties ps
  | [], _, h => by cases h; rfl
  | _ :: _, [], h => h.elim
  | (_, _) :: _, (_, _) :: _, ⟨_, hr, h⟩ => by
      rw [cellsProperties, cellsProperties, cells_of_grows hr, cellsProperties_of_grows h]

theorem cellsBlueprint_of_grows {b left : Blueprint} (h : b.Grows left) :
    cellsBlueprint left = cellsBlueprint b := by
  obtain ⟨id, className, scope, dependsOn, synthetic, resource, args, properties⟩ := b
  obtain ⟨id', className', scope', dependsOn', synthetic', resource', args', properties'⟩ := left
  rw [cellsBlueprint, cellsBlueprint, cellsAll_of_grows h.args,
    cellsProperties_of_grows h.properties]

/-! ### Cells that are not used -/

theorem unused_append {cell : Nat} {xs ys : List (Nat × Blueprint)} :
    Unused cell (xs ++ ys) ↔ Unused cell xs ∧ Unused cell ys := List.forall_mem_append

mutual

/-- To refresh a cell changes nothing where the cell is not used. -/
theorem refresh_of_unused {cell : Nat} (new : Blueprint) : ∀ {raw : Raw},
    Unused cell raw.cells → raw.refresh cell new = raw
  | null, _ | value _, _ | reference _, _ | nameReference _, _ | dependency _, _ | literal _, _
  | properties _, _ => rfl
  | holder name aliases c b, h => by
      obtain ⟨hc, hb⟩ := List.forall_mem_cons.1 h
      rw [refresh, if_neg hc, refreshBlueprint_of_unused new hb]
  | nested c b, h => by
      obtain ⟨hc, hb⟩ := List.forall_mem_cons.1 h
      rw [refresh, if_neg hc, refreshBlueprint_of_unused new hb]
  | array _ _ _, h | list _, h | set _, h => by
      rw [cells] at h
      rw [refresh, refreshAll_of_unused new h]
  | map _, h => by
      rw [cells] at h
      rw [refresh, refreshEntries_of_unused new h]

theorem refreshBlueprint_of_unused {cell : Nat} (new : Blueprint) : ∀ {b : BlueprintOf Raw},
    Unused cell (cellsBlueprint b) → refreshBlueprint cell new b = b
  | ⟨id, className, scope, dependsOn, synthetic, resource, args, props⟩, h => by
      obtain ⟨hargs, hprops⟩ := unused_append.1 h
      rw [refreshBlueprint, refreshAll_of_unused new hargs, refreshProperties_of_unused new hprops]

theorem refreshAll_of_unused {cell : Nat} (new : Blueprint) : ∀ {es : List Raw},
    Unused cell (cellsAll es) → refreshAll cell new es = es
  | [], _ => rfl
  | _ :: _, h => by
      obtain ⟨he, hes⟩ := unused_append.1 h
      rw [refreshAll, refresh_of_unused new he, refreshAll_of_unused new hes]

theorem refreshEntries_of_unused {cell : Nat} (new : Blueprint) : ∀ {es : List (Raw × Raw)},
    Unused cell (cellsEntries es) → refreshEntries cell new es = es
  | [], _ => rfl
  | (_, _) :: _, h => by
      obtain ⟨hk, h⟩ := unused_append.1 h
      obtain ⟨hv, hes⟩ := unused_append.1 h
      rw [refreshEntries, refresh_of_unused new hk, refresh_of_unused new hv,
        refreshEntries_of_unused new hes]

theorem refreshProperties_of_unused {cell : Nat} (new : Blueprint) : ∀ {ps : List (String × Raw)},
    Unused cell (cellsProperties ps) → refreshProperties cell new ps = ps
  | [], _ => rfl
  | (_, _) :: _, h => by
      obtain ⟨hr, hps⟩ := unused_append.1 h
      rw [refreshProperties, refresh_of_unused new hr, refreshProperties_of_unused new hps]

end

end Raw

end Wiring
