/-!
# Ordered — lists without repetition

Sets and tables that keep the order in which their members first arrived.  `Ordered.add` puts a
member at the end unless an equal one is there; `Ordered.put` replaces the value under an equal key
where it stands, and puts a new key at the end.  What counts as equal is the type's own `==`, so
equal members may still be told apart, and the first one stays.

Main statements: `mem_add` and `nodup_add` for lists of names, where equal means the same;
`find?_put` for tables, whose answers `put` changes under equal keys only.
-/

namespace Wiring.Ordered

variable {α β : Type} [BEq α]

/-- The list with `x` as its last member, unless it has an equal one. -/
def add (xs : List α) (x : α) : List α :=
  if xs.contains x then xs else xs ++ [x]

/-- The list with `x` added, and whether `x` is new to it. -/
def insert (xs : List α) (x : α) : Bool × List α :=
  (!xs.contains x, add xs x)

/-- The first of all equal members of a list, in order. -/
def ofList (xs : List α) : List α :=
  xs.foldl add []

/-- The table with `v` under `k`. -/
def put : List (α × β) → α → β → List (α × β)
  | [], k, v => [(k, v)]
  | (k', v') :: es, k, v => if k' == k then (k', v) :: es else (k', v') :: put es k v

/-- The value under a key equal to `k`. -/
def find? : List (α × β) → α → Option β
  | [], _ => none
  | (k', v') :: es, k => if k' == k then some v' else find? es k

/-- The table with `v` put under `k`, and what stood there before. -/
def replace (es : List (α × β)) (k : α) (v : β) : Option β × List (α × β) :=
  (find? es k, put es k v)

/-- The table made by putting pairs in order. -/
def ofPairs (es : List (α × β)) : List (α × β) :=
  es.foldl (fun table e => put table e.1 e.2) []

/-! ### Members after an addition -/

theorem mem_add [LawfulBEq α] {xs : List α} {x y : α} : y ∈ add xs x ↔ y ∈ xs ∨ y = x := by
  rw [add]
  split
  next h =>
    refine ⟨.inl, fun hy => hy.elim id fun hyx => ?_⟩
    exact hyx ▸ List.contains_iff_mem.1 h
  next => rw [List.mem_append, List.mem_singleton]

theorem prefix_add (xs : List α) (x : α) : xs <+: add xs x := by
  rw [add]
  split
  · exact List.prefix_refl xs
  · exact List.prefix_append xs [x]

theorem nodup_add [LawfulBEq α] {xs : List α} (h : xs.Nodup) (x : α) : (add xs x).Nodup := by
  rw [add]
  split
  next => exact h
  next hx =>
    refine List.nodup_append.2 ⟨h, List.nodup_cons.2 ⟨List.not_mem_nil, .nil⟩, ?_⟩
    rintro y hy z hz rfl
    rw [List.mem_singleton.1 hz] at hy
    exact hx (List.contains_iff_mem.2 hy)

theorem nodup_foldl_add [LawfulBEq α] (ys : List α) :
    ∀ {xs : List α}, xs.Nodup → (ys.foldl add xs).Nodup := by
  induction ys with
  | nil => exact fun h => h
  | cons y ys ih => exact fun h => ih (nodup_add h y)

theorem nodup_ofList [LawfulBEq α] (xs : List α) : (ofList xs).Nodup :=
  nodup_foldl_add xs .nil

theorem mem_foldl_add [LawfulBEq α] (ys : List α) {y : α} :
    ∀ {xs : List α}, y ∈ ys.foldl add xs ↔ y ∈ xs ∨ y ∈ ys := by
  induction ys with
  | nil => simp
  | cons z ys ih =>
    intro xs
    rw [List.foldl_cons, ih, mem_add, List.mem_cons, or_assoc]

theorem mem_ofList [LawfulBEq α] {xs : List α} {x : α} : x ∈ ofList xs ↔ x ∈ xs := by
  rw [ofList, mem_foldl_add]
  simp

theorem prefix_foldl_add (ys : List α) : ∀ xs : List α, xs <+: ys.foldl add xs := by
  induction ys with
  | nil => exact List.prefix_refl
  | cons y ys ih => exact fun xs => (prefix_add xs y).trans (ih (add xs y))

/-- The first member of a list stays the first. -/
theorem head?_ofList (x : α) (xs : List α) : (ofList (x :: xs)).head? = some x := by
  obtain ⟨rest, h⟩ := prefix_foldl_add xs [x]
  rw [ofList, List.foldl_cons]
  change (xs.foldl add [x]).head? = some x
  rw [← h]
  rfl

/-! ### Answers after a value was put -/

/-- A value put under a key is found under the equal keys; under the others nothing changes. -/
theorem find?_put [EquivBEq α] (es : List (α × β)) (k : α) (v : β) (q : α) :
    find? (put es k v) q = if k == q then some v else find? es q := by
  induction es with
  | nil => rfl
  | cons e es ih =>
    rw [put]
    split
    next h =>
      rw [find?, BEq.congr_left h, find?, BEq.congr_left h]
      split <;> rfl
    next h =>
      rw [find?, ih, find?]
      by_cases heq : e.1 == q
      · have hkq : (k == q) = false := by
          rw [Bool.eq_false_iff]
          exact fun hk => h (BEq.trans heq (BEq.symm hk))
        rw [heq, hkq]
        rfl
      · rw [Bool.not_eq_true] at heq
        rw [heq]
        rfl

theorem lookup_eq_find? [LawfulBEq α] (k : α) : ∀ es : List (α × β), es.lookup k = find? es k
  | [] => rfl
  | (k', v') :: es => by
    rw [List.lookup_cons, find?, lookup_eq_find? k es]
    by_cases h : k' = k
    · rw [h, beq_self_eq_true]
      rfl
    · rw [beq_false_of_ne h, beq_false_of_ne (Ne.symm h)]
      rfl

end Wiring.Ordered
