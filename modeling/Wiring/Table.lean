/-!
# Tables — by name

A finite map from names, its entries in strictly increasing order of their names.  The order is
part of the type, so two tables with the same answers are equal (`Table.ext_get?`), whatever the
order in which their entries were inserted.
-/

namespace Wiring

/-- The entries with `v` under `k`, in order of names. -/
def insertSorted {α : Type} (k : String) (v : α) : List (String × α) → List (String × α)
  | [] => [(k, v)]
  | e :: es =>
    if k < e.1 then (k, v) :: e :: es
    else if k = e.1 then (k, v) :: es
    else e :: insertSorted k v es

theorem mem_insertSorted {α : Type} {k : String} {v : α} {e : String × α} :
    ∀ {es : List (String × α)}, e ∈ insertSorted k v es → e = (k, v) ∨ e ∈ es
  | [], h => by simpa [insertSorted] using h
  | d :: es, h => by
    rw [insertSorted] at h
    split at h
    · simpa using h
    · split at h
      · rcases List.mem_cons.1 h with h | h
        · exact .inl h
        · exact .inr (List.mem_cons_of_mem _ h)
      · rcases List.mem_cons.1 h with h | h
        · exact .inr (h ▸ List.mem_cons_self)
        · exact (mem_insertSorted h).imp id (List.mem_cons_of_mem _)

theorem sorted_insertSorted {α : Type} (k : String) (v : α) :
    ∀ {es : List (String × α)}, es.Pairwise (fun a b => a.1 < b.1) →
      (insertSorted k v es).Pairwise fun a b => a.1 < b.1
  | [], _ => by simp [insertSorted]
  | d :: es, h => by
    obtain ⟨hd, hes⟩ := List.pairwise_cons.1 h
    rw [insertSorted]
    split
    next hk =>
      refine List.pairwise_cons.2 ⟨fun e he => ?_, h⟩
      rcases List.mem_cons.1 he with rfl | he
      · exact hk
      · exact String.lt_trans hk (hd e he)
    next hk =>
      split
      next hkd => exact List.pairwise_cons.2 ⟨fun e he => hkd ▸ hd e he, hes⟩
      next hkd =>
        refine List.pairwise_cons.2 ⟨fun e he => ?_, sorted_insertSorted k v hes⟩
        rcases mem_insertSorted he with rfl | he
        · rcases Decidable.em (d.1 < k) with hdk | hdk
          · exact hdk
          · exact absurd (String.le_antisymm (String.not_lt.1 hdk) (String.not_lt.1 hk)) hkd
        · exact hd e he

/-- A finite map from names. -/
structure Table (α : Type) where
  /-- The entries, in order of their names. -/
  entries : List (String × α)
  sorted : entries.Pairwise fun a b => a.1 < b.1

namespace Table

variable {α : Type}

/-- The table without entries. -/
def empty : Table α := ⟨[], .nil⟩

instance : Inhabited (Table α) := ⟨empty⟩

/-- The table with `v` under `k`. -/
def insert (t : Table α) (k : String) (v : α) : Table α :=
  ⟨insertSorted k v t.entries, sorted_insertSorted k v t.sorted⟩

/-- What stands under `k`. -/
def get? (t : Table α) (k : String) : Option α :=
  t.entries.lookup k

/-- Something stands under `k`. -/
def contains (t : Table α) (k : String) : Bool :=
  (t.get? k).isSome

/-- The table with `v` put under `k`, and what stood there before. -/
def replace (t : Table α) (k : String) (v : α) : Option α × Table α :=
  (t.get? k, t.insert k v)

/-- What stands under `k` after `v` was put there if nothing did, and whether it was put. -/
def getOrInsert (t : Table α) (k : String) (v : α) : (α × Bool) × Table α :=
  match t.get? k with
  | some old => ((old, false), t)
  | none => ((v, true), t.insert k v)

/-- The table with `f` applied to what stands under each name. -/
def map {β : Type} (f : α → β) (t : Table α) : Table β :=
  ⟨t.entries.map fun e => (e.1, f e.2), List.pairwise_map.2 t.sorted⟩

/-- The names in the table, in order. -/
def names (t : Table α) : List String :=
  t.entries.map Prod.fst

/-- The count of entries. -/
def size (t : Table α) : Nat :=
  t.entries.length

/-! ### Answers after an insertion -/

theorem lookup_cons (k : String) (e : String × α) (es : List (String × α)) :
    (e :: es).lookup k = if k = e.1 then some e.2 else es.lookup k := by
  by_cases h : k = e.1
  · subst h
    rw [List.lookup_cons_self, if_pos rfl]
  · rw [List.lookup_cons, beq_false_of_ne h, if_neg h]

theorem lookup_insertSorted (k : String) (v : α) (k' : String) :
    ∀ es : List (String × α),
      (insertSorted k v es).lookup k' = if k' = k then some v else es.lookup k'
  | [] => by simp [insertSorted, lookup_cons]
  | e :: es => by
    rw [insertSorted]
    split
    · rw [lookup_cons]
    · split
      next hk => simp only [lookup_cons, ← hk]; split <;> rfl
      next hk =>
        rw [lookup_cons, lookup_cons, lookup_insertSorted k v k' es]
        by_cases he : k' = e.1
        · have hne : k' ≠ k := fun h => hk (h.symm.trans he)
          simp [he, he ▸ hne]
        · simp [he]

theorem get?_insert (t : Table α) (k : String) (v : α) (k' : String) :
    (t.insert k v).get? k' = if k' = k then some v else t.get? k' :=
  lookup_insertSorted k v k' t.entries

theorem lookup_map {β : Type} (f : α → β) (k : String) :
    ∀ es : List (String × α),
      (es.map fun e => (e.1, f e.2)).lookup k = (es.lookup k).map f
  | [] => rfl
  | e :: es => by
    rw [List.map_cons, lookup_cons, lookup_cons, lookup_map f k es]
    split <;> rfl

theorem get?_map {β : Type} (f : α → β) (t : Table α) (k : String) :
    (t.map f).get? k = (t.get? k).map f :=
  lookup_map f k t.entries

/-! ### Entries and names -/

theorem lookup_eq_some_iff {k : String} {v : α} :
    ∀ {es : List (String × α)}, es.Pairwise (fun a b => a.1 < b.1) →
      (es.lookup k = some v ↔ (k, v) ∈ es)
  | [], _ => by simp
  | e :: es, h => by
    obtain ⟨he, hes⟩ := List.pairwise_cons.1 h
    rw [lookup_cons, List.mem_cons]
    split
    next hk =>
      refine ⟨fun hv => .inl (Prod.ext hk (Option.some.inj hv).symm), fun hmem => ?_⟩
      rcases hmem with heq | hmem
      · rw [← heq]
      · -- the later names are greater
        have hlt := he (k, v) hmem
        rw [hk] at hlt
        exact absurd hlt (String.lt_irrefl e.1)
    next hk =>
      rw [lookup_eq_some_iff hes]
      exact ⟨.inr, fun hmem => hmem.resolve_left fun heq => hk (congrArg Prod.fst heq)⟩

theorem mem_entries {t : Table α} {k : String} {v : α} :
    (k, v) ∈ t.entries ↔ t.get? k = some v :=
  (lookup_eq_some_iff t.sorted).symm

theorem mem_names {t : Table α} {k : String} : k ∈ t.names ↔ t.contains k := by
  rw [names, contains, Option.isSome_iff_exists, List.mem_map]
  constructor
  · rintro ⟨⟨k', v⟩, he, rfl⟩
    exact ⟨v, mem_entries.1 he⟩
  · rintro ⟨v, hv⟩
    exact ⟨(k, v), mem_entries.2 hv, rfl⟩

theorem mem_names_insert {t : Table α} {k k' : String} {v : α} :
    k' ∈ (t.insert k v).names ↔ k' = k ∨ k' ∈ t.names := by
  rw [mem_names, mem_names, contains, get?_insert, contains]
  split
  next h => simp [h]
  next h => simp [h]

/-! ### Tables with the same answers -/

theorem lookup_eq_none_of_lt {k : String} {es : List (String × α)} (h : ∀ e ∈ es, k < e.1) :
    es.lookup k = none := by
  induction es with
  | nil => rfl
  | cons e es ih =>
    have hne : k ≠ e.1 := fun hk => by
      have hlt := h e List.mem_cons_self
      rw [← hk] at hlt
      exact String.lt_irrefl k hlt
    rw [lookup_cons, if_neg hne, ih fun e he => h e (List.mem_cons_of_mem _ he)]

theorem eq_of_lookup_eq : ∀ {es fs : List (String × α)}, es.Pairwise (fun a b => a.1 < b.1) →
    fs.Pairwise (fun a b => a.1 < b.1) → (∀ k, es.lookup k = fs.lookup k) → es = fs
  | [], [], _, _, _ => rfl
  | [], f :: fs, _, _, h => by simpa [lookup_cons] using h f.1
  | e :: es, [], _, _, h => by simpa [lookup_cons] using h e.1
  | e :: es, f :: fs, hes, hfs, h => by
    obtain ⟨he, hes⟩ := List.pairwise_cons.1 hes
    obtain ⟨hf, hfs⟩ := List.pairwise_cons.1 hfs
    have first : ¬ e.1 < f.1 := fun hlt => by
      have hnone : (f :: fs).lookup e.1 = none := lookup_eq_none_of_lt fun g hg => by
        rcases List.mem_cons.1 hg with rfl | hg
        · exact hlt
        · exact String.lt_trans hlt (hf g hg)
      rw [← h e.1] at hnone
      simp [lookup_cons] at hnone
    have second : ¬ f.1 < e.1 := fun hlt => by
      have hnone : (e :: es).lookup f.1 = none := lookup_eq_none_of_lt fun g hg => by
        rcases List.mem_cons.1 hg with rfl | hg
        · exact hlt
        · exact String.lt_trans hlt (he g hg)
      rw [h f.1] at hnone
      simp [lookup_cons] at hnone
    have hkey : e.1 = f.1 := String.le_antisymm (String.not_lt.1 second) (String.not_lt.1 first)
    have hval : e.2 = f.2 := by simpa [lookup_cons, hkey] using h e.1
    have htail : es = fs := eq_of_lookup_eq hes hfs fun k => by
      by_cases hk : k = e.1
      · subst hk
        rw [lookup_eq_none_of_lt he, lookup_eq_none_of_lt fun g hg => hkey ▸ hf g hg]
      · simpa [lookup_cons, hk, hkey ▸ hk] using h k
    rw [htail, Prod.ext hkey hval]

/-- Tables with the same answers are equal. -/
theorem ext_get? {t u : Table α} (h : ∀ k, t.get? k = u.get? k) : t = u := by
  obtain ⟨es, hes⟩ := t
  obtain ⟨fs, hfs⟩ := u
  obtain rfl : es = fs := eq_of_lookup_eq hes hfs h
  rfl

/-- Tables of names alone are equal when they have the same names. -/
theorem ext_names {t u : Table Unit} (h : ∀ k, k ∈ t.names ↔ k ∈ u.names) : t = u := by
  refine ext_get? fun k => ?_
  have hk := h k
  rw [mem_names, mem_names, contains, contains] at hk
  cases ht : t.get? k <;> cases hu : u.get? k <;> simp [ht, hu] at hk ⊢

end Table

end Wiring
