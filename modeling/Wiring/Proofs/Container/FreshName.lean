import Mathlib.Data.Nat.Find
import Wiring.Container.Create
import Wiring.Proofs.Naming

/-!
# Containers — new names for inner beans

The search for a new name among those made from a proposed one **ends at the first that is not in
use** (`run_freshName`), for every separator: the container has fewer names in use than the search
tries, and the tried names are distinct.  The name found is granted, and nothing else changes.
-/

namespace Wiring

namespace Container

variable (c : Container)

/-- The names in use, with repetitions. -/
def usedNames : List String :=
  c.aliases.names ++ c.definitions.names ++ c.singletons.names ++ c.dependents.sources

variable {c}

theorem mem_usedNames {name : String} (h : c.isNameInUse name) : name ∈ c.usedNames := by
  simp only [isNameInUse, Bool.or_eq_true] at h
  simp only [usedNames, List.mem_append]
  rcases h with ((h | h) | h) | h
  · exact .inl (.inl (.inl (Table.mem_names.2 h)))
  · exact .inl (.inl (.inr (Table.mem_names.2 h)))
  · exact .inl (.inr (Table.mem_names.2 h))
  · exact .inr (Edges.mem_sources_of_hasSource h)

theorem length_usedNames : c.usedNames.length = c.namesInUse := by
  simp only [usedNames, namesInUse, List.length_append, Table.names, Table.size, List.length_map]

/-- The name tried as number `k` is the first of those made from a base that is not in use. -/
structure FirstFree (c : Container) (naming : Naming) (base : String) (k : Nat) : Prop where
  free : c.isNameInUse (naming.nth base k) = false
  busy : ∀ j < k, c.isNameInUse (naming.nth base j)

/-- One of the names made from a base is the first that is not in use, and its number is at most
the count of names in use. -/
theorem exists_firstFree (c : Container) (naming : Naming) (base : String) :
    ∃ k ≤ c.namesInUse, c.FirstFree naming base k := by
  obtain ⟨m, hm, hfree⟩ := naming.exists_nth_not_mem base c.usedNames
  have hfree : c.isNameInUse (naming.nth base m) = false :=
    Bool.eq_false_iff.2 fun h => hfree (mem_usedNames h)
  rw [length_usedNames] at hm
  have hex : ∃ k, c.isNameInUse (naming.nth base k) = false := ⟨m, hfree⟩
  refine ⟨Nat.find hex, ?_, Nat.find_spec hex, fun j hj => ?_⟩
  · exact Nat.le_trans (Nat.find_min' hex hfree) hm
  · exact Bool.of_not_eq_false (Nat.find_min hex hj)

/-- Only one of the names made from a base is the first that is not in use. -/
theorem FirstFree.unique {naming : Naming} {base : String} {j k : Nat}
    (h : c.FirstFree naming base j) (h' : c.FirstFree naming base k) : j = k := by
  rcases Nat.lt_trichotomy j k with hlt | heq | hlt
  · exact absurd (h'.busy j hlt) (Bool.eq_false_iff.1 h.free)
  · exact heq
  · exact absurd (h.busy k hlt) (Bool.eq_false_iff.1 h'.free)

end Container

namespace Chain

theorem run_isNameInUse_busy {chain : Chain} {name : String} (h : chain.own.isNameInUse name) :
    isNameInUse name chain = (true, chain) := by
  change (if chain.own.isNameInUse name then _ else _ : StateM Chain Bool) chain = _
  rw [if_pos h]
  rfl

theorem run_isNameInUse_free {chain : Chain} {name : String}
    (h : chain.own.isNameInUse name = false) :
    isNameInUse name chain = (false, chain.modifyOwn fun c => c.grant name) := by
  change (if chain.own.isNameInUse name then _ else _ : StateM Chain Bool) chain = _
  rw [if_neg (by rw [h]; exact Bool.false_ne_true)]
  rfl

variable {make : Maker} {evaluation : Evaluation} {r : Resolver Chain}

theorem run_searchName_succ (hr : r.collaborators = collaborators make evaluation)
    (base candidate : String) (tries counter : Nat) (chain : Chain) :
    (r.searchName base (tries + 1) counter candidate).run chain =
      if (isNameInUse candidate chain).1 then
        (r.searchName base tries (counter + 1) (r.naming.nth base (counter + 1))).run
          (isNameInUse candidate chain).2
      else (.ok candidate, (isNameInUse candidate chain).2) := by
  rw [Resolver.searchName, hr]
  change (if (isNameInUse candidate chain).1 then _ else pure candidate : Action Chain String).run
    (isNameInUse candidate chain).2 = _
  split <;> rfl

/-- The search, from the name of number `counter` on, ends at the first free one. -/
theorem run_searchName (hr : r.collaborators = collaborators make evaluation) (chain : Chain)
    (base : String) {k : Nat} (hk : chain.own.FirstFree r.naming base k) :
    ∀ tries counter, counter ≤ k → k < counter + tries →
      (r.searchName base tries counter (r.naming.nth base counter)).run chain =
        (.ok (r.naming.nth base k), chain.modifyOwn fun c => c.grant (r.naming.nth base k))
  | 0, counter, hle, hlt => by omega
  | tries + 1, counter, hle, hlt => by
      rw [run_searchName_succ hr]
      -- a name before number `k` is busy and leaves the chain as it is; number `k` ends the search
      rcases Nat.lt_or_eq_of_le hle with h | rfl
      · rw [run_isNameInUse_busy (hk.busy counter h), if_pos rfl]
        exact run_searchName hr chain base hk tries (counter + 1) h (by omega)
      · rw [run_isNameInUse_free hk.free, if_neg Bool.false_ne_true]

/-- **The search for a new name ends at the first that is not in use**, which is granted. -/
theorem run_freshName (hr : r.collaborators = collaborators make evaluation) (chain : Chain)
    (proposed : String) :
    ∃ k, chain.own.FirstFree r.naming proposed k ∧
      (r.freshName proposed).run chain =
        (.ok (r.naming.nth proposed k),
          chain.modifyOwn fun c => c.grant (r.naming.nth proposed k)) := by
  obtain ⟨k, hle, hk⟩ := chain.own.exists_firstFree r.naming proposed
  refine ⟨k, hk, ?_⟩
  have hbound : r.collaborators.namesInUse chain = chain.own.namesInUse := by rw [hr]; rfl
  change (r.searchName proposed (r.collaborators.namesInUse chain + 1) 0 proposed).run chain = _
  rw [hbound]
  exact run_searchName hr chain proposed hk _ 0 (Nat.zero_le k) (by omega)

end Chain

end Wiring
