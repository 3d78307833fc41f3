import Mathlib.Data.List.Basic
import Mathlib.Data.List.Induction
import Wiring.Ordered

/-!
# Ordered — what stays of a list

A list keeps the first of all equal members, as the library's `List.eraseDups` does
(`ofList_eq_eraseDups`, `ofList_eq_firsts`).  **A table keeps its keys in the order of their first
occurrence, each with its last value** (`ofPairs_eq_latest`); `Tabulates` says so entry by entry,
and only the table made by putting the pairs in order is such a one (`tabulates_iff`).

What is added to a list or put into a table may be gathered first: only the list or the table that
was gathered matters (`foldl_add_ofList`, `ofPairs_append`).
-/

namespace Wiring.Ordered

variable {α β : Type} [BEq α]

/-! ### Lists -/

theorem foldl_add_reverse : ∀ xs seen : List α,
    xs.foldl add seen.reverse = List.eraseDupsBy.loop (· == ·) xs seen
  | [], seen => rfl
  | x :: xs, seen => by
      rw [List.foldl_cons, List.eraseDupsBy.loop, add, List.contains_reverse,
        List.contains_eq_any_beq]
      cases seen.any (x == ·) with
      | true => exact foldl_add_reverse xs seen
      | false =>
          rw [if_neg Bool.false_ne_true, ← List.reverse_cons]
          exact foldl_add_reverse xs (x :: seen)

/-- The first of all equal members stay. -/
theorem ofList_eq_eraseDups (xs : List α) : ofList xs = xs.eraseDups :=
  foldl_add_reverse xs []

theorem ofList_concat (xs : List α) (x : α) : ofList (xs ++ [x]) = add (ofList xs) x := by
  rw [ofList, List.foldl_append]
  rfl

theorem mem_of_mem_ofList {x : α} {xs : List α} (h : x ∈ ofList xs) : x ∈ xs := by
  induction xs using List.reverseRecOn with
  | nil => exact h
  | append_singleton xs y ih =>
      rw [ofList_concat, add] at h
      split at h
      · exact List.mem_append_left _ (ih h)
      · exact (List.mem_append.1 h).elim (fun h => List.mem_append_left _ (ih h))
          (List.mem_append_right _)

theorem distinct_add [PartialEquivBEq α] {xs : List α} {x : α}
    (h : xs.Pairwise fun a b => (a == b) = false) :
    (add xs x).Pairwise fun a b => (a == b) = false := by
  rw [add]
  split
  next => exact h
  next hx =>
    refine List.pairwise_append.2 ⟨h, List.pairwise_singleton _ _, fun a ha b hb => ?_⟩
    cases List.mem_singleton.1 hb
    rw [Bool.eq_false_iff]
    intro hax
    exact hx (List.contains_iff_exists_mem_beq.2 ⟨a, ha, BEq.symm hax⟩)

/-- No two members that stay are equal. -/
theorem distinct_ofList [PartialEquivBEq α] (xs : List α) :
    (ofList xs).Pairwise fun a b => (a == b) = false := by
  induction xs using List.reverseRecOn with
  | nil => exact .nil
  | append_singleton xs x ih =>
      rw [ofList_concat]
      exact distinct_add ih

/-! ### First occurrences -/

/-- The members that are equal to none before them, in order. -/
def firsts (xs : List α) : List α :=
  (xs.zipIdx.filter fun (x, i) => (xs.take i).all (· != x)).map Prod.fst

theorem firsts_concat (xs : List α) (x : α) :
    firsts (xs ++ [x]) = if xs.all (· != x) then firsts xs ++ [x] else firsts xs := by
  have before : (xs.zipIdx.filter fun (y, i) => ((xs ++ [x]).take i).all (· != y)) =
      xs.zipIdx.filter fun (y, i) => (xs.take i).all (· != y) := by
    refine List.filter_congr fun (y, i) hy => ?_
    have hi : i < xs.length := List.snd_lt_of_mem_zipIdx hy
    dsimp only
    rw [List.take_append_of_le_length (Nat.le_of_lt hi)]
  rw [firsts, List.zipIdx_append, List.filter_append, before]
  have last : ((xs ++ [x]).take (0 + xs.length)).all (· != x) = xs.all (· != x) := by
    rw [Nat.zero_add, List.take_left']
    rfl
  rw [List.zipIdx_singleton, List.filter_singleton]
  dsimp only
  rw [last]
  cases xs.all (· != x) with
  | true => rw [cond_true, List.map_append, if_pos rfl]; rfl
  | false => rw [cond_false, List.append_nil, if_neg Bool.false_ne_true]; rfl

theorem contains_eq_not_all [PartialEquivBEq α] (xs : List α) (x : α) :
    xs.contains x = !xs.all (· != x) := by
  rw [List.contains_eq_any_beq, List.not_all_eq_any_not]
  refine congrArg xs.any (funext fun y => ?_)
  rw [bne, Bool.not_not, BEq.comm]

/-- What is added is there, or an equal member is. -/
theorem contains_add [PartialEquivBEq α] (xs : List α) (x y : α) :
    (add xs x).contains y = (xs ++ [x]).contains y := by
  rw [add]
  split
  next known =>
    obtain ⟨z, hz, hxz⟩ := List.contains_iff_exists_mem_beq.1 known
    rw [Bool.eq_iff_iff, List.contains_append, Bool.or_eq_true]
    refine ⟨.inl, fun h => h.elim id fun h => ?_⟩
    have hyx : (y == x) = true := by simpa using h
    exact List.contains_iff_exists_mem_beq.2 ⟨z, hz, BEq.trans hyx hxz⟩
  next => rfl

theorem contains_foldl_add [PartialEquivBEq α] (ys : List α) (y : α) : ∀ xs : List α,
    (ys.foldl add xs).contains y = (xs ++ ys).contains y := by
  induction ys with
  | nil => exact fun xs => by rw [List.append_nil]; rfl
  | cons z ys ih =>
      intro xs
      rw [List.foldl_cons, ih, List.contains_append, contains_add, ← List.contains_append,
        List.append_assoc]
      rfl

theorem contains_ofList [PartialEquivBEq α] (xs : List α) (y : α) :
    (ofList xs).contains y = xs.contains y :=
  contains_foldl_add xs y []

/-- Of what is added only the first of all equal members matters. -/
theorem foldl_add_ofList [PartialEquivBEq α] (xs ys : List α) :
    (ofList ys).foldl add xs = ys.foldl add xs := by
  induction ys using List.reverseRecOn with
  | nil => rfl
  | append_singleton ys y ih =>
      rw [ofList_concat, List.foldl_append, List.foldl_cons, List.foldl_nil, add]
      split
      next known =>
        have there : (ys.foldl add xs).contains y := by
          rw [contains_foldl_add, List.contains_append, ← contains_ofList ys, known, Bool.or_true]
        rw [ih, add, if_pos there]
      next => rw [List.foldl_append, ih, List.foldl_cons, List.foldl_nil]

/-- **A list keeps the members that are equal to none before them.** -/
theorem ofList_eq_firsts [PartialEquivBEq α] (xs : List α) : ofList xs = firsts xs := by
  induction xs using List.reverseRecOn with
  | nil => rfl
  | append_singleton xs x ih =>
      rw [ofList_concat, firsts_concat, add, contains_ofList, contains_eq_not_all, ih]
      cases xs.all (· != x) <;> rfl

/-! ### Tables -/

theorem ofPairs_concat (es : List (α × β)) (e : α × β) :
    ofPairs (es ++ [e]) = put (ofPairs es) e.1 e.2 := by
  rw [ofPairs, List.foldl_append]
  rfl

/-- The keys in the order of their first occurrence, each with its last value. -/
def latest (es : List (α × β)) : List (α × β) :=
  (es.map Prod.fst).eraseDups.filterMap fun k => (es.reverse.lookup k).map (k, ·)

/-- A value that is put under a key stands in the place of the equal key, or at the end. -/
theorem put_filterMap [EquivBEq α] {value? : α → Option β} (k : α) (v : β) : ∀ {ks : List α},
    ks.Pairwise (fun a b => (a == b) = false) → (∀ q ∈ ks, (value? q).isSome) →
      put (ks.filterMap fun q => (value? q).map (q, ·)) k v =
        (add ks k).filterMap fun q => (if q == k then some v else value? q).map (q, ·)
  | [], _, _ => by simp [put, add]
  | q :: ks, distinct, found => by
      obtain ⟨w, hw⟩ := Option.isSome_iff_exists.1 (found q List.mem_cons_self)
      obtain ⟨apart, distinct⟩ := List.pairwise_cons.1 distinct
      have rest := put_filterMap k v distinct fun q hq => found q (List.mem_cons_of_mem _ hq)
      rw [List.filterMap_cons, hw, Option.map_some, put]
      by_cases hqk : q == k
      · -- no other key is equal to `k`, so none changes its value
        have others : ∀ p ∈ ks, (p == k) = false := fun p hp => by
          rw [Bool.eq_false_iff]
          intro hpk
          have hqp : (q == p) = true := BEq.trans hqk (BEq.symm hpk)
          rw [apart p hp] at hqp
          cases hqp
        have kept : add (q :: ks) k = q :: ks := by
          have known : (q :: ks).contains k :=
            List.contains_iff_exists_mem_beq.2 ⟨q, List.mem_cons_self, BEq.symm hqk⟩
          rw [add, if_pos known]
        rw [if_pos hqk, kept, List.filterMap_cons, if_pos hqk]
        refine congrArg ((q, v) :: ·) (List.filterMap_congr fun p hp => ?_)
        rw [others p hp, if_neg Bool.false_ne_true]
      · -- the place of `k` is further on
        have moved : add (q :: ks) k = q :: add ks k := by
          have hkq : (k == q) = false := by
            rw [Bool.eq_false_iff]
            exact fun hkq => hqk (BEq.symm hkq)
          rw [add, add, List.contains_cons, hkq, Bool.false_or]
          split <;> rfl
        rw [if_neg hqk, moved, List.filterMap_cons, if_neg hqk, hw, rest]
        rfl

theorem lookup_isSome [ReflBEq α] {q : α} : ∀ {es : List (α × β)}, q ∈ es.map Prod.fst →
    (es.lookup q).isSome
  | (k, v) :: es, h => by
      rw [List.lookup_cons]
      cases hqk : q == k with
      | true => rfl
      | false =>
          rcases List.mem_cons.1 h with rfl | h
          · rw [beq_self_eq_true] at hqk
            cases hqk
          · exact lookup_isSome h

/-- **A table keeps its keys in the order of their first occurrence, each with its last value.** -/
theorem ofPairs_eq_latest [EquivBEq α] (es : List (α × β)) : ofPairs es = latest es := by
  induction es using List.reverseRecOn with
  | nil => rfl
  | append_singleton es e ih =>
      obtain ⟨k, v⟩ := e
      have found : ∀ q ∈ ofList (es.map Prod.fst), (es.reverse.lookup q).isSome := by
        intro q hq
        refine lookup_isSome ?_
        rw [List.map_reverse, List.mem_reverse]
        exact mem_of_mem_ofList hq
      rw [ofPairs_concat, ih, latest, latest, ← ofList_eq_eraseDups, ← ofList_eq_eraseDups,
        put_filterMap k v (distinct_ofList _) found, List.map_append, List.map_cons, List.map_nil,
        ofList_concat, List.reverse_append]
      refine congrArg (List.filterMap · _) (funext fun q => ?_)
      change _ = (((k, v) :: es.reverse).lookup q).map (q, ·)
      rw [List.lookup_cons]
      cases q == k <;> rfl

/-! ### Keys -/

theorem keys_put [PartialEquivBEq α] (k : α) (v : β) : ∀ es : List (α × β),
    (put es k v).map Prod.fst = add (es.map Prod.fst) k
  | [] => rfl
  | (k', v') :: es => by
      rw [put, List.map_cons, add, List.contains_cons, show (k == k') = (k' == k) from BEq.comm]
      cases k' == k with
      | true => rfl
      | false =>
          rw [if_neg Bool.false_ne_true, Bool.false_or, List.map_cons, keys_put k v es, add]
          split <;> rfl

theorem keys_ofPairs [PartialEquivBEq α] (es : List (α × β)) :
    (ofPairs es).map Prod.fst = ofList (es.map Prod.fst) := by
  induction es using List.reverseRecOn with
  | nil => rfl
  | append_singleton es e ih =>
      rw [ofPairs_concat, keys_put, ih, List.map_append, List.map_singleton, ofList_concat]

/-! ### Tables, entry by entry -/

/-- The value under a key in the last of the pairs with an equal key. -/
theorem lookup_reverse_eq_some_iff {es : List (α × β)} {q : α} {v : β} :
    es.reverse.lookup q = some v ↔
      ∃ before k after, es = before ++ (k, v) :: after ∧ (q == k) = true ∧
        ∀ f ∈ after, (q == f.1) = false := by
  rw [List.lookup_eq_findSome?, List.findSome?_eq_some_iff]
  constructor
  · rintro ⟨after, ⟨k, w⟩, before, hes, found, others⟩
    obtain ⟨hqk, hw⟩ := Option.ite_none_right_eq_some.1 found
    obtain rfl : w = v := Option.some.inj hw
    refine ⟨before.reverse, k, after.reverse, ?_, hqk, fun f hf => ?_⟩
    · rw [List.reverse_eq_append_iff.1 hes, List.reverse_cons, List.append_assoc]
      rfl
    · simpa using others f (List.mem_reverse.1 hf)
  · rintro ⟨before, k, after, rfl, hqk, others⟩
    refine ⟨after.reverse, (k, v), before.reverse, by simp, if_pos hqk, fun f hf => ?_⟩
    rw [if_neg (Bool.eq_false_iff.1 (others f (List.mem_reverse.1 hf)))]

/-- The table holds, for pairs in order, the first key of all equal ones with the value of the last
one. -/
structure Tabulates (es table : List (α × β)) : Prop where
  /-- No two keys are equal. -/
  distinct : (table.map Prod.fst).Pairwise fun a b => (a == b) = false
  /-- The keys are those that are equal to none before them, in order. -/
  keys : table.map Prod.fst = firsts (es.map Prod.fst)
  /-- The value of an entry is that of the last pair with an equal key. -/
  values : ∀ e ∈ table, ∃ before k after, es = before ++ (k, e.2) :: after ∧ (e.1 == k) = true ∧
    ∀ f ∈ after, (e.1 == f.1) = false

theorem tabulates_ofPairs [EquivBEq α] (es : List (α × β)) : Tabulates es (ofPairs es) where
  distinct := by
    rw [keys_ofPairs]
    exact distinct_ofList _
  keys := by rw [keys_ofPairs, ofList_eq_firsts]
  values e he := by
    rw [ofPairs_eq_latest] at he
    obtain ⟨k, _, he⟩ := List.mem_filterMap.1 he
    obtain ⟨v, hv, rfl⟩ := Option.map_eq_some_iff.1 he
    exact lookup_reverse_eq_some_iff.1 hv

/-- **The table made by putting pairs in order is the one that holds them.** -/
theorem tabulates_iff [EquivBEq α] {es table : List (α × β)} :
    Tabulates es table ↔ table = ofPairs es := by
  refine ⟨fun h => ?_, fun h => h ▸ tabulates_ofPairs es⟩
  have found : ∀ e ∈ table, (es.reverse.lookup e.1).map (e.1, ·) = some e := fun e he => by
    rw [lookup_reverse_eq_some_iff.2 (h.values e he)]
    rfl
  rw [ofPairs_eq_latest, latest, ← ofList_eq_eraseDups, ofList_eq_firsts, ← h.keys,
    List.filterMap_map]
  exact ((List.filterMap_congr found).trans List.filterMap_some).symm

/-! ### One table put into another -/

/-- The table with the entries of another one put into it, in order. -/
def putAll (table es : List (α × β)) : List (α × β) :=
  es.foldl (fun table e => put table e.1 e.2) table

theorem ofPairs_append_eq_putAll (es fs : List (α × β)) :
    ofPairs (es ++ fs) = putAll (ofPairs es) fs :=
  List.foldl_append

/-- A new key is put at the end. -/
theorem put_of_new {k : α} (v : β) : ∀ {es : List (α × β)},
    (∀ e ∈ es, (e.1 == k) = false) → put es k v = es ++ [(k, v)]
  | [], _ => rfl
  | e :: es, new => by
      obtain ⟨he, new⟩ := List.forall_mem_cons.1 new
      rw [put, he, if_neg Bool.false_ne_true, put_of_new v new]
      rfl

/-- A table without equal keys is made from its own entries. -/
theorem ofPairs_of_distinct {es : List (α × β)}
    (distinct : (es.map Prod.fst).Pairwise fun a b => (a == b) = false) : ofPairs es = es := by
  induction es using List.reverseRecOn with
  | nil => rfl
  | append_singleton es e ih =>
      rw [List.map_append, List.pairwise_append] at distinct
      obtain ⟨before, -, apart⟩ := distinct
      rw [ofPairs_concat, ih before]
      refine put_of_new e.2 fun f hf => apart f.1 (List.mem_map_of_mem hf) e.1 ?_
      exact List.mem_singleton_self _

theorem find?_ofPairs [EquivBEq α] (es : List (α × β)) (q : α) :
    find? (ofPairs es) q = es.reverse.lookup q := by
  induction es using List.reverseRecOn with
  | nil => rfl
  | append_singleton es e ih =>
      rw [ofPairs_concat, find?_put, ih, List.reverse_append]
      change _ = (e :: es.reverse).lookup q
      rw [List.lookup_cons, BEq.comm]
      cases q == e.1 <;> rfl

/-- The table made from pairs is found in as the pairs themselves are, from the end. -/
theorem lookup_reverse_ofPairs [EquivBEq α] (es : List (α × β)) (q : α) :
    (ofPairs es).reverse.lookup q = es.reverse.lookup q := by
  have distinct := (tabulates_ofPairs es).distinct
  rw [← find?_ofPairs, ofPairs_of_distinct distinct, find?_ofPairs]

/-- **Of the pairs that are put into a table, only the table made from them matters.** -/
theorem ofPairs_append [EquivBEq α] (es fs : List (α × β)) :
    ofPairs (es ++ fs) = putAll (ofPairs es) (ofPairs fs) := by
  have keys : ofList ((es ++ ofPairs fs).map Prod.fst) = ofList ((es ++ fs).map Prod.fst) := by
    rw [ofList, ofList, List.map_append, List.map_append, List.foldl_append, List.foldl_append,
      keys_ofPairs, foldl_add_ofList]
  have found (q : α) : (es ++ ofPairs fs).reverse.lookup q = (es ++ fs).reverse.lookup q := by
    rw [List.reverse_append, List.reverse_append, List.lookup_append, List.lookup_append,
      lookup_reverse_ofPairs]
  rw [← ofPairs_append_eq_putAll, ofPairs_eq_latest, ofPairs_eq_latest, latest, latest,
    ← ofList_eq_eraseDups, ← ofList_eq_eraseDups, keys]
  simp only [found]

end Wiring.Ordered
