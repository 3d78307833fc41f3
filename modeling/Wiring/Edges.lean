import Wiring.Ordered
import Wiring.Table

/-!
# Edges — a relation between names

A relation between names, each source with its targets in the order in which they were first
registered (`Edges.targets`).  Main statements: `targets_register` and `contains_register`, what
one edge more changes.
-/

namespace Wiring

/-- A relation between names. -/
structure Edges where
  /-- The targets of each source. -/
  bySource : Table (List String) := .empty

namespace Edges

instance : Inhabited Edges := ⟨{}⟩

/-- The targets of a source, in order of first registration. -/
def targets (edges : Edges) (source : String) : List String :=
  (edges.bySource.get? source).getD []

/-- The edge is there. -/
def contains (edges : Edges) (source target : String) : Bool :=
  (edges.targets source).contains target

/-- The relation with one edge more, and whether the edge is new. -/
def register (edges : Edges) (source target : String) : Bool × Edges :=
  (!edges.contains source target,
    ⟨edges.bySource.insert source (Ordered.add (edges.targets source) target)⟩)

/-- Some edge starts at the name. -/
def hasSource (edges : Edges) (source : String) : Bool :=
  !(edges.targets source).isEmpty

/-- The names at which edges start. -/
def sources (edges : Edges) : List String :=
  edges.bySource.names

/-- The count of edges. -/
def size (edges : Edges) : Nat :=
  edges.bySource.entries.foldl (fun n e => n + e.2.length) 0

/-- There is no edge. -/
def isEmpty (edges : Edges) : Bool :=
  edges.size == 0

/-! ### One edge more -/

theorem targets_register (edges : Edges) (source target name : String) :
    (edges.register source target).2.targets name =
      if name = source then Ordered.add (edges.targets source) target else edges.targets name := by
  rw [targets, register, Table.get?_insert]
  split <;> rfl

/-- The targets of a source are only extended, at the end. -/
theorem targets_prefix_register (edges : Edges) (source target name : String) :
    edges.targets name <+: (edges.register source target).2.targets name := by
  rw [targets_register]
  split
  next h => rw [h]; exact Ordered.prefix_add _ _
  next => exact List.prefix_refl _

theorem contains_register (edges : Edges) (source target a b : String) :
    (edges.register source target).2.contains a b ↔
      edges.contains a b ∨ a = source ∧ b = target := by
  rw [contains, contains, targets_register, List.contains_iff_mem, List.contains_iff_mem]
  split
  next h => rw [Ordered.mem_add, h]; simp
  next h => simp [h]

/-! ### Sources -/

theorem mem_sources_of_hasSource {edges : Edges} {source : String} (h : edges.hasSource source) :
    source ∈ edges.sources := by
  refine Table.mem_names.2 ?_
  rw [hasSource, targets] at h
  rw [Table.contains]
  cases hget : edges.bySource.get? source with
  | none => rw [hget] at h; exact absurd h Bool.false_ne_true
  | some targets => rfl

theorem hasSource_of_contains {edges : Edges} {source target : String}
    (h : edges.contains source target) : edges.hasSource source := by
  rw [contains, List.contains_iff_mem] at h
  rw [hasSource]
  cases htargets : edges.targets source with
  | nil => rw [htargets] at h; exact absurd h List.not_mem_nil
  | cons _ _ => rfl

theorem hasSource_of_prefix {edges edges' : Edges} {source : String}
    (h : edges.targets source <+: edges'.targets source) (hs : edges.hasSource source) :
    edges'.hasSource source := by
  rw [hasSource] at hs ⊢
  cases htargets : edges.targets source with
  | nil => rw [htargets] at hs; exact absurd hs Bool.false_ne_true
  | cons target targets =>
    obtain ⟨rest, hrest⟩ := h
    rw [← hrest, htargets]
    rfl

theorem hasSource_register (edges : Edges) (source target : String) :
    (edges.register source target).2.hasSource source :=
  hasSource_of_contains ((contains_register edges source target source target).2 (.inr ⟨rfl, rfl⟩))

end Edges

end Wiring
