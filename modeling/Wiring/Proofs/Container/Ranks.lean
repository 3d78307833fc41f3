import Mathlib.Algebra.Order.BigOperators.Group.List
import Mathlib.Algebra.Order.Group.Nat
import Wiring.Proofs.Container.ObjectEnds

/-!
# Containers — definitions in ranks

A chain is ranked (`Chain.Ranked`) if each of its definitions leads to definitions of a smaller rank
only: what it looks up, at any depth, is a bean that is there, or no bean at all, or is to be made
of such a definition.  Beans are looked up by name then; no definition asks for one by its type.

**In a ranked chain every look-up comes to an end, and so does every resolution**
(`ranked_finishes`): from some bound on they do not depend on the bound.
-/

namespace Wiring

namespace Chain

/-- The chain `up`, this one or the rest of it from a container above, has the definition in its own
container. -/
structure Defines (chain up : Chain) (name : String) (b : Blueprint) : Prop where
  part : up.containers <:+ chain.containers
  defined : up.own.definitions.get? name = some b

/-- A look-up of the name has a bean made, if it does, of a definition whose rank is below `k`.  The
rank of a definition goes by how many containers are above its own, and by its name. -/
def LeadsBelow (rank : Nat → String → Nat) (k : Nat) (chain : Chain) (name : String) : Prop :=
  ∀ up other, chain.defining name = some (up, other) → rank up.ancestors.length other < k

/-- Whatever a definition of the chain looks up, at any depth, leads to definitions of a smaller
rank; and it looks up nothing by type. -/
def Ranked (rank : Nat → String → Nat) (chain : Chain) : Prop :=
  ∀ up name b, chain.Defines up name b → ∀ leaf ∈ b.deepLeaves,
    leaf.LooksUp .placeholders (LeadsBelow rank (rank up.ancestors.length name)) False up

variable {chain up : Chain} {rank : Nat → String → Nat} {own : Container}
  {ancestors : List Container} {name : String} {b : Blueprint} {bound k m : Nat}

/-! ### Definitions -/

theorem Defines.above {top : Chain} (h : up.Defines top name b)
    (part : up.containers <:+ chain.containers) : chain.Defines top name b :=
  ⟨h.part.trans part, h.defined⟩

/-- A definition of a chain is one of its own container, or one of the chain above it. -/
theorem Defines.cases (h : Defines ⟨own, ancestors⟩ up name b) :
    up = ⟨own, ancestors⟩ ∧ (name, b) ∈ own.definitions.entries ∨
      ∃ top rest, ancestors = top :: rest ∧ Defines ⟨top, rest⟩ up name b := by
  obtain ⟨part, defined⟩ := h
  rcases List.suffix_cons_iff.1 part with same | part
  · obtain ⟨rfl, rfl⟩ := List.cons_eq_cons.1 same
    exact .inl ⟨rfl, Table.mem_entries.2 defined⟩
  · cases ancestors with
    | nil => exact absurd (List.suffix_nil.1 part) (List.cons_ne_nil _ _)
    | cons top rest => exact .inr ⟨top, rest, rfl, part, defined⟩

/-- The definition that a look-up has a bean made of is one of the chain's. -/
theorem defines_of_defining : ∀ (own : Container) (ancestors : List Container)
    {name other : String}, definingIn own ancestors name = some (up, other) →
      ∃ b, Defines ⟨own, ancestors⟩ up other b
  | own, ancestors, name, other, h => by
      rw [definingIn.eq_def] at h
      split at h
      · cases h
      next b _ defined =>
        cases h
        exact ⟨b, List.suffix_rfl, defined⟩
      · cases ancestors with
        | nil => cases h
        | cons up rest =>
            obtain ⟨b, defines⟩ := defines_of_defining up rest h
            exact ⟨b, defines.above (List.suffix_cons _ _)⟩

/-- The definitions of a chain are bounded in every respect. -/
theorem exists_bound (f : Nat → String → Blueprint → Nat) : ∀ (own : Container)
    (ancestors : List Container), ∃ n, ∀ up name b, Defines ⟨own, ancestors⟩ up name b →
      f up.ancestors.length name b ≤ n
  | own, ancestors => by
      have above : ∃ n, ∀ top rest, ancestors = top :: rest → ∀ up name b,
          Defines ⟨top, rest⟩ up name b → f up.ancestors.length name b ≤ n := by
        cases ancestors with
        | nil => exact ⟨0, nofun⟩
        | cons top rest =>
            obtain ⟨n, hn⟩ := exists_bound f top rest
            refine ⟨n, fun _ _ same => ?_⟩
            cases same
            exact hn
      obtain ⟨n, hn⟩ := above
      let values := own.definitions.entries.map fun e => f ancestors.length e.1 e.2
      refine ⟨values.sum + n, fun up name b defines => ?_⟩
      rcases defines.cases with ⟨rfl, entry⟩ | ⟨top, rest, above, defines⟩
      · have le : f ancestors.length name b ≤ values.sum :=
          List.le_sum_of_mem (List.mem_map_of_mem entry)
        exact Nat.le_trans le (Nat.le_add_right _ _)
      · exact Nat.le_trans (hn top rest above up name b defines) (Nat.le_add_left _ _)

/-! ### Ranked chains -/

theorem MakingEnds.mono (h : MakingEnds bound chain name b) (le : bound ≤ k) :
    MakingEnds k chain name b := fun d e hd he => h d e (Nat.le_trans le hd) (Nat.le_trans le he)

/-- A chain is ranked if its own definitions lead to smaller ranks and the chain above it is. -/
theorem ranked_of_own
    (here : ∀ definition ∈ own.definitions.entries, ∀ leaf ∈ definition.2.deepLeaves,
      leaf.LooksUp .placeholders (LeadsBelow rank (rank ancestors.length definition.1)) False
        ⟨own, ancestors⟩)
    (above : ∀ top rest, ancestors = top :: rest → Ranked rank ⟨top, rest⟩) :
    Ranked rank ⟨own, ancestors⟩ := by
  intro up name b defines
  rcases defines.cases with ⟨rfl, entry⟩ | ⟨top, rest, ancestors, defines⟩
  · exact here (name, b) entry
  · exact above top rest ancestors up name b defines

/-- **A look-up that leads below a rank ends.**  Its bound allows, for each smaller rank, for an
object and for as many nested blueprints as a definition has at most. -/
theorem lookupEnds_of_ranked (ranked : chain.Ranked rank)
    (hm : ∀ up name b, chain.Defines up name b → (Raw.cellsBlueprint b).length ≤ m) :
    ∀ (k : Nat) (up : Chain), up.containers <:+ chain.containers → ∀ name,
      LeadsBelow rank k up name → LookupEnds (k * (m + 1)) up name
  | k, up, part, name, leads => by
      refine lookupEnds_of_makings fun top other origin left reached defined grows => ?_
      have smaller := leads top other reached
      obtain ⟨_, defines⟩ := defines_of_defining up.own up.ancestors reached
      have defines : chain.Defines top other origin := ⟨defines.part.trans part, defined⟩
      have looks : ∀ leaf ∈ left.deepLeaves, leaf.LooksUp .placeholders
          (LookupEnds (rank top.ancestors.length other * (m + 1)))
          (LookupsEnd (rank top.ancestors.length other * (m + 1)) top) top := by
        intro leaf hleaf
        obtain ⟨leaf, horigin, grown⟩ := BlueprintOf.deepLeaves_of_grows grows hleaf
        refine Raw.LooksUp.of_grows (Raw.LooksUp.imp (ranked top other origin defines leaf horigin)
          (fun up part name leads => ?_) False.elim) grown
        -- what the definition looks up is of a smaller rank
        exact lookupEnds_of_ranked ranked hm _ up (part.trans defines.part) name leads
      have few : (Raw.cellsBlueprint left).length ≤ m := by
        rw [Raw.cellsBlueprint_of_grows grows]
        exact hm top other origin defines
      refine (makingEnds_of_looks m few looks other).mono ?_
      rw [Nat.add_assoc, ← Nat.succ_mul]
      exact Nat.mul_le_mul_right _ smaller
termination_by k => k

/-- In a ranked chain one bound is enough for every look-up, here and above. -/
theorem lookupsEnd_of_ranked (ranked : chain.Ranked rank) : ∃ bound, LookupsEnd bound chain := by
  obtain ⟨m, hm⟩ :=
    exists_bound (fun _ _ b => (Raw.cellsBlueprint b).length) chain.own chain.ancestors
  obtain ⟨k, hk⟩ := exists_bound (fun height name _ => rank height name) chain.own chain.ancestors
  refine ⟨(k + 1) * (m + 1), fun up part name => ?_⟩
  refine lookupEnds_of_ranked ranked hm (k + 1) up part name fun top other reached => ?_
  obtain ⟨b, defines⟩ := defines_of_defining up.own up.ancestors reached
  exact Nat.lt_succ_of_le (hk top other b (defines.above part))

/-- **In a ranked chain every look-up comes to an end, and so does every resolution**, of any raw
value for any bean: from some bound on no bound is reached, and all is as it is under that bound. -/
theorem ranked_finishes (ranked : chain.Ranked rank) :
    (∃ bound, ∀ depth, bound ≤ depth → ∀ name,
      ((getByName (create depth) name).run chain).1 ≠ .error .exhausted ∧
      (getByName (create depth) name).run chain = (getByName (create bound) name).run chain) ∧
    ∀ raw, ∃ bound, ∀ depth, bound ≤ depth → ∀ evaluation bean blueprint naming path,
      let resolution n := Resolver.resolve
        ⟨collaborators (create n) evaluation, bean, blueprint, naming⟩ path raw chain
      (resolution depth).1.outcome ≠ .error .exhausted ∧ resolution depth = resolution bound := by
  obtain ⟨bound, all⟩ := lookupsEnd_of_ranked ranked
  have grown : GrownFrom chain chain := refl_of (Each Container.Grows) chain
  constructor
  · refine ⟨bound, fun depth le name => ?_⟩
    have run := all chain List.suffix_rfl name depth bound le (Nat.le_refl bound) chain grown
    exact ⟨run.done, run.same.symm⟩
  · intro raw
    refine ⟨bound + raw.cells.length, fun depth le evaluation bean blueprint naming path => ?_⟩
    have run := resolve_endsAlike all raw le (Nat.le_refl _)
      (r := ⟨collaborators (create depth) evaluation, bean, blueprint, naming⟩) rfl path chain grown
    exact ⟨run.done, run.same.symm⟩

/-- A definition with a nested blueprint that depends on a bean above, which is also reached by an
alias and by a placeholder. -/
theorem ranked_finishes_of_nested :
    let blueprint (className : String) (dependsOn : List String) (args : List Raw) : Blueprint := {
      id := 1, className, scope := .singleton, dependsOn
      synthetic := false, resource := none, args, properties := [] }
    let byname : Raw := .reference ⟨.name "db", false⟩
    let placeholder : Raw := .reference ⟨.name "$\x7bwhere\x7d", true⟩
    let service := blueprint "Service" ["store"] [placeholder]
    let app := blueprint "App" [] [.list [.nested 0 service, byname]]
    let top := ({ id := "top" } : Container).registerBlueprint "store" (blueprint "Store" [] [])
    let main := ((({ id := "main" } : Container).registerBlueprint "app" app).registerAlias
      "db" "store").definePlaceholder "where" (.string "store")
    let chain : Chain := ⟨main, [top]⟩
    let rank (_ : Nat) (name : String) := if name = "app" then 1 else 0
    chain.Ranked rank ∧ ∃ bound, ∀ depth, bound ≤ depth → ∀ name,
      ((getByName (create depth) name).run chain).1 ≠ .error .exhausted := by
  intro blueprint byname placeholder service app top main chain rank
  have leads {up : Chain} {name : String} (reached : up.defining name = some (⟨top, []⟩, "store")) :
      LeadsBelow rank 1 up name := by
    intro up' other h
    cases reached.symm.trans h
    decide
  have ranked : chain.Ranked rank := by
    refine ranked_of_own ?_ fun up rest above => ?_
    · rintro definition (_ | ⟨_, ⟨⟩⟩) leaf hleaf
      have leaves : leaf ∈ [.nested 0 service, byname, placeholder] := hleaf
      rcases leaves with _ | ⟨_, _ | ⟨_, _ | ⟨_, ⟨⟩⟩⟩⟩
      · rintro name (_ | ⟨_, ⟨⟩⟩)
        exact leads rfl
      · intro v hv
        have named : Evaluation.placeholders.evaluate main.placeholders "db" =
            .ok (.string "db") := rfl
        cases named.symm.trans hv
        exact leads rfl
      · intro v hv up rest above
        have named : Evaluation.placeholders.evaluate main.placeholders "$\x7bwhere\x7d" =
            .ok (.string "store") := rfl
        cases named.symm.trans hv
        cases above
        exact leads rfl
    · cases above
      refine ranked_of_own ?_ nofun
      rintro definition (_ | ⟨_, ⟨⟩⟩) leaf ⟨⟩
  obtain ⟨⟨bound, ends⟩, -⟩ := ranked_finishes ranked
  exact ⟨ranked, bound, fun depth le name => (ends depth le name).1⟩

end Chain

end Wiring
