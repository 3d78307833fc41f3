import Wiring.Naming

/-!
# Naming — the names made from a base

`Naming.nth base k` is the name tried as number `k`: the base itself, and then the numbered names.
**They are pairwise distinct** (`nth_injective`), whatever the separator is, so of more of them
than a list has members one is not in the list (`exists_nth_not_mem`).
-/

namespace Wiring

theorem toString_injective {m n : Nat} (h : toString m = toString n) : m = n := by
  have hdigits : Nat.toDigits 10 m = Nat.toDigits 10 n := by
    simpa only [Nat.toString_eq_repr, Nat.toList_repr] using congrArg String.toList h
  have hvalue := congrArg (fun cs => Nat.ofDigitChars 10 cs 0) hdigits
  simpa using hvalue

namespace Naming

variable (naming : Naming) (base : String)

/-- The name tried as number `k`. -/
def nth : Nat → String
  | 0 => base
  | k + 1 => naming.numbered base (k + 1)

theorem numbered_injective {j k : Nat} (h : naming.numbered base j = naming.numbered base k) :
    j = k :=
  toString_injective ((String.append_right_inj _).1 h)

/-- A numbered name is longer than its base, also with an empty separator. -/
theorem base_ne_numbered (k : Nat) : base ≠ naming.numbered base k := by
  intro h
  have hlength := congrArg String.length h
  -- the separator may be empty: it is the number that makes the name longer
  have hdigits : 0 < (toString k).length := Nat.length_repr_pos
  simp only [numbered, String.length_append] at hlength
  omega

/-- **The names made from a base are pairwise distinct.** -/
theorem nth_injective {j k : Nat} (h : naming.nth base j = naming.nth base k) : j = k := by
  match j, k with
  | 0, 0 => rfl
  | 0, k + 1 => exact absurd h (naming.base_ne_numbered base (k + 1))
  | j + 1, 0 => exact absurd h.symm (naming.base_ne_numbered base (j + 1))
  | j + 1, k + 1 => exact naming.numbered_injective base h

/-- One of the first names is not in a list with fewer members. -/
theorem exists_nth_not_mem (used : List String) :
    ∃ k ≤ used.length, naming.nth base k ∉ used := by
  apply Classical.byContradiction
  intro hall
  have hused : ∀ k ≤ used.length, naming.nth base k ∈ used := fun k hk =>
    Classical.byContradiction fun hn => hall ⟨k, hk, hn⟩
  have hnodup : ((List.range (used.length + 1)).map (naming.nth base)).Nodup :=
    List.pairwise_map.2 (List.nodup_range.imp fun hne h => hne (naming.nth_injective base h))
  have hsubset : (List.range (used.length + 1)).map (naming.nth base) ⊆ used := by
    intro name hname
    obtain ⟨k, hk, rfl⟩ := List.mem_map.1 hname
    exact hused k (Nat.lt_succ_iff.1 (List.mem_range.1 hk))
  -- more distinct names than the list has members cannot all be members
  have hlength := List.Nodup.length_le_of_subset hnodup hsubset
  rw [List.length_map, List.length_range] at hlength
  omega

end Naming

end Wiring
