import Mathlib.Data.List.Perm.Subperm
import Wiring.Proofs.Ordered
import Wiring.Proofs.Value.Hash

/-!
# Values — collections made by insertion

A set, a map or a properties table is made by inserting its members one after the other.  No two
members, and no two keys, are then equal, so that pairing off needs no choice: such collections are
equal when they have one size and each member of the first is found in the second
(`setOf_beq_eq`, `tableOf_beq_eq`), and also when both answer every question alike
(`setOf_beq_iff`, `tableOf_beq_iff`).  From the second form, **neither the order of insertion nor
an exchange of equal values, however deep, makes a difference** (`within_congr`).
-/

namespace Wiring

/-! ### Partners of one's own -/

section Partners

variable {α : Type} {r : α → α → Bool} {xs ys : List α}

/-- No two members have a partner in common. -/
def Apart (r : α → α → Bool) (xs : List α) : Prop :=
  xs.Pairwise fun x x' => ∀ y, r x y = true → r x' y = false

/-- Members that have no partner in common have partners of their own as soon as each has one. -/
theorem exists_partners (apart : Apart r xs) (found : ∀ x ∈ xs, ∃ y ∈ ys, r x y = true) :
    ∃ zs, List.Forall₂ (r · · = true) xs zs ∧ zs.Subperm ys := by
  induction xs generalizing ys with
  | nil => exact ⟨[], .nil, List.nil_subperm⟩
  | cons x xs ih =>
      obtain ⟨own, apart⟩ := List.pairwise_cons.1 apart
      obtain ⟨⟨y, hy, hxy⟩, found⟩ := List.forall_mem_cons.1 found
      obtain ⟨before, after, rfl⟩ := List.append_of_mem hy
      have rest : ∀ x' ∈ xs, ∃ y' ∈ before ++ after, r x' y' = true := by
        intro x' hx'
        obtain ⟨y', hy', hxy'⟩ := found x' hx'
        refine ⟨y', ?_, hxy'⟩
        rcases List.mem_cons.1 (List.perm_middle.subset hy') with rfl | hy'
        · rw [own x' hx' y' hxy] at hxy'
          cases hxy'
        · exact hy'
      obtain ⟨zs, hzs, sub⟩ := ih apart rest
      exact ⟨y :: zs, .cons hxy hzs, ((List.subperm_cons y).2 sub).trans
        List.perm_middle.symm.subperm⟩

theorem length_le_of_found (apart : Apart r xs) (found : ∀ x ∈ xs, ∃ y ∈ ys, r x y = true) :
    xs.length ≤ ys.length := by
  obtain ⟨zs, hzs, sub⟩ := exists_partners apart found
  rw [hzs.length_eq]
  exact sub.length_le

/-- Members that have no partner in common are paired off with as many members among which each of
them has a partner. -/
theorem pairOffBy_iff_found (uniform : ∀ x ∈ xs, Uniform r x) (apart : Apart r xs) :
    pairOffBy r xs ys = true ↔ xs.length = ys.length ∧ ∀ x ∈ xs, ∃ y ∈ ys, r x y = true := by
  constructor
  · exact fun h => ⟨length_eq_of_pairOffBy uniform h, found_of_pairOffBy uniform h⟩
  · rintro ⟨length, found⟩
    obtain ⟨zs, hzs, sub⟩ := exists_partners apart found
    have many : ys.length = zs.length := length.symm.trans hzs.length_eq
    exact (pairOffBy_iff uniform).2 ⟨zs, (sub.perm_of_length_le (Nat.le_of_eq many)).symm, hzs⟩

end Partners

/-! ### Answers for equal arguments -/

namespace Ordered

variable {α β : Type} [BEq α]

theorem find?_congr [PartialEquivBEq α] {k k' : α} (h : k == k') : ∀ es : List (α × β),
    find? es k = find? es k'
  | [] => rfl
  | e :: es => by rw [find?, find?, find?_congr h es, BEq.congr_right h]

theorem mem_of_find? {k : α} {v : β} : ∀ {es : List (α × β)}, find? es k = some v →
    ∃ e ∈ es, (e.1 == k) = true ∧ e.2 = v
  | e :: es, h => by
      rw [find?] at h
      split at h
      next hk => exact ⟨e, List.mem_cons_self, hk, Option.some.inj h⟩
      next =>
        obtain ⟨f, hf, found⟩ := mem_of_find? h
        exact ⟨f, List.mem_cons_of_mem _ hf, found⟩

/-- An entry of a table without equal keys is found. -/
theorem find?_of_mem [PartialEquivBEq α] {k : α} {e : α × β} : ∀ {es : List (α × β)},
    (es.map Prod.fst).Pairwise (fun a b => (a == b) = false) → e ∈ es → (e.1 == k) = true →
      find? es k = some e.2
  | f :: es, distinct, he, hk => by
      obtain ⟨apart, distinct⟩ := List.pairwise_cons.1 distinct
      rw [find?]
      rcases List.mem_cons.1 he with rfl | he
      · rw [if_pos hk]
      · have hf : ¬(f.1 == k) = true := by
          intro hfk
          have hfe : (f.1 == e.1) = true := BEq.trans hfk (BEq.symm hk)
          rw [apart e.1 (List.mem_map_of_mem he)] at hfe
          cases hfe
        rw [if_neg hf]
        exact find?_of_mem distinct he hk

end Ordered

namespace Value

/-! ### Size and lookup -/

/-- As many values, and each of the first is found among the second. -/
def sameMembers (xs ys : List Value) : Bool :=
  xs.length == ys.length && xs.all ys.contains

/-- As many entries, and each key of the first is found in the second with an equal value. -/
def sameEntries (es fs : List (Value × Value)) : Bool :=
  es.length == fs.length && es.all fun e => (Ordered.find? fs e.1).any (e.2 == ·)

section Distinct

variable {xs ys : List Value} {es fs : List (Value × Value)}

theorem beqEntry_iff {e f : Value × Value} :
    beqEntry e f = true ↔ (e.1 == f.1) = true ∧ (e.2 == f.2) = true :=
  Bool.and_eq_true_iff

/-- Members whose keys are not equal have no partner in common when those who share one have equal
keys. -/
theorem apart_of_keys {α : Type} {r : α → α → Bool} {key : α → Value} {xs : List α}
    (shared : ∀ x x' y, r x y = true → r x' y = true → (key x == key x') = true)
    (distinct : xs.Pairwise fun x x' => (key x == key x') = false) : Apart r xs := by
  refine distinct.imp fun {x x'} apart y hxy => ?_
  rw [Bool.eq_false_iff]
  intro hx'y
  have equal := shared x x' y hxy hx'y
  rw [apart] at equal
  cases equal

theorem apart_of_distinct (distinct : xs.Pairwise fun a b => (a == b) = false) : Apart beq xs :=
  apart_of_keys (fun x x' y (hxy : x == y) (hx'y : x' == y) => BEq.trans hxy (BEq.symm hx'y))
    distinct

theorem apart_of_distinct_keys
    (distinct : (es.map Prod.fst).Pairwise fun a b => (a == b) = false) : Apart beqEntry es :=
  apart_of_keys
    (fun _ _ _ hef he'f => BEq.trans (beqEntry_iff.1 hef).1 (BEq.symm (beqEntry_iff.1 he'f).1))
    (List.pairwise_map.1 distinct)

theorem contains_iff {v : Value} : xs.contains v = true ↔ ∃ x ∈ xs, beq v x = true :=
  List.contains_iff_exists_mem_beq

theorem found_iff (distinct : (fs.map Prod.fst).Pairwise fun a b => (a == b) = false)
    (e : Value × Value) :
    (∃ f ∈ fs, beqEntry e f = true) ↔ (Ordered.find? fs e.1).any (e.2 == ·) = true := by
  rw [Option.any_eq_true]
  constructor
  · rintro ⟨f, hf, hef⟩
    obtain ⟨hk, hv⟩ := beqEntry_iff.1 hef
    exact ⟨f.2, Ordered.find?_of_mem distinct hf (BEq.symm hk), hv⟩
  · rintro ⟨w, found, hv⟩
    obtain ⟨f, hf, hk, rfl⟩ := Ordered.mem_of_find? found
    exact ⟨f, hf, beqEntry_iff.2 ⟨BEq.symm hk, hv⟩⟩

theorem pairOff_eq_sameMembers (distinct : xs.Pairwise fun a b => (a == b) = false) :
    pairOff xs ys = sameMembers xs ys := by
  rw [pairOff_eq, Bool.eq_iff_iff, pairOffBy_iff_found (uniformAll xs) (apart_of_distinct distinct),
    sameMembers, Bool.and_eq_true, beq_iff_eq, List.all_eq_true]
  simp only [contains_iff]

theorem pairOffEntries_eq_sameEntries
    (distinct : (es.map Prod.fst).Pairwise fun a b => (a == b) = false)
    (distinct' : (fs.map Prod.fst).Pairwise fun a b => (a == b) = false) :
    pairOffEntries es fs = sameEntries es fs := by
  rw [pairOffEntries_eq, Bool.eq_iff_iff,
    pairOffBy_iff_found (uniformEntries es) (apart_of_distinct_keys distinct), sameEntries,
    Bool.and_eq_true, beq_iff_eq, List.all_eq_true]
  simp only [found_iff distinct']

/-! ### The same answers -/

/-- What one set contains, an equal set contains. -/
theorem contains_of_beq (h : (set xs == set ys) = true) {v : Value} (hv : xs.contains v = true) :
    ys.contains v = true := by
  obtain ⟨x, hx, hvx⟩ := contains_iff.1 hv
  obtain ⟨y, hy, hxy⟩ := found_of_pairOffBy (uniformAll xs) ((pairOff_eq xs ys).symm.trans h) x hx
  have hvy : (v == y) = true := BEq.trans hvx hxy
  exact contains_iff.2 ⟨y, hy, hvy⟩

/-- Sets without equal members are equal when they contain the same values. -/
theorem set_beq_iff (distinct : xs.Pairwise fun a b => (a == b) = false)
    (distinct' : ys.Pairwise fun a b => (a == b) = false) :
    (set xs == set ys) = true ↔ ∀ v, xs.contains v = ys.contains v := by
  constructor
  · intro h v
    rw [Bool.eq_iff_iff]
    exact ⟨contains_of_beq h, contains_of_beq (BEq.symm h)⟩
  · intro same
    have found : ∀ {xs ys : List Value}, (∀ v, xs.contains v = ys.contains v) →
        ∀ x ∈ xs, ∃ y ∈ ys, beq x y = true := fun same x hx =>
      contains_iff.1 ((same x).symm.trans (contains_iff.2 ⟨x, hx, beq_refl x⟩))
    refine (pairOff_eq xs ys).trans
      ((pairOffBy_iff_found (uniformAll xs) (apart_of_distinct distinct)).2 ⟨?_, found same⟩)
    refine Nat.le_antisymm ?_ ?_
    · exact length_le_of_found (apart_of_distinct distinct) (found same)
    · exact length_le_of_found (apart_of_distinct distinct') (found fun v => (same v).symm)

/-- What the first table answers, the second answers with an equal value. -/
def AnsweredBy (es fs : List (Value × Value)) : Prop :=
  ∀ k v, Ordered.find? es k = some v → ∃ w, Ordered.find? fs k = some w ∧ (v == w) = true

theorem answeredBy_of_beq (distinct : (fs.map Prod.fst).Pairwise fun a b => (a == b) = false)
    (h : (map es == map fs) = true) : AnsweredBy es fs := by
  intro k v found
  obtain ⟨e, he, hk, rfl⟩ := Ordered.mem_of_find? found
  obtain ⟨f, hf, hef⟩ :=
    found_of_pairOffBy (uniformEntries es) ((pairOffEntries_eq es fs).symm.trans h) e he
  obtain ⟨hkf, hvf⟩ := beqEntry_iff.1 hef
  exact ⟨f.2, Ordered.find?_of_mem distinct hf (BEq.trans (BEq.symm hkf) hk), hvf⟩

/-- An entry of a table has a partner in any table that answers the same. -/
theorem AnsweredBy.partner (distinct : (es.map Prod.fst).Pairwise fun a b => (a == b) = false)
    (answered : AnsweredBy es fs) {e : Value × Value} (he : e ∈ es) :
    ∃ f ∈ fs, beqEntry e f = true := by
  obtain ⟨w, found, hvw⟩ := answered e.1 e.2 (Ordered.find?_of_mem distinct he BEq.rfl)
  obtain ⟨f, hf, hk, rfl⟩ := Ordered.mem_of_find? found
  exact ⟨f, hf, beqEntry_iff.2 ⟨BEq.symm hk, hvw⟩⟩

/-- Tables without equal keys are equal when they answer each key with equal values. -/
theorem map_beq_iff (distinct : (es.map Prod.fst).Pairwise fun a b => (a == b) = false)
    (distinct' : (fs.map Prod.fst).Pairwise fun a b => (a == b) = false) :
    (map es == map fs) = true ↔ AnsweredBy es fs ∧ AnsweredBy fs es := by
  constructor
  · exact fun h => ⟨answeredBy_of_beq distinct' h, answeredBy_of_beq distinct (BEq.symm h)⟩
  · rintro ⟨answered, answered'⟩
    refine (pairOffEntries_eq es fs).trans
      ((pairOffBy_iff_found (uniformEntries es) (apart_of_distinct_keys distinct)).2
        ⟨Nat.le_antisymm ?_ ?_, fun e => answered.partner distinct⟩)
    · exact length_le_of_found (apart_of_distinct_keys distinct)
        fun e => answered.partner distinct
    · exact length_le_of_found (apart_of_distinct_keys distinct')
        fun f => answered'.partner distinct'

end Distinct

/-! ### Collections that were inserted -/

/-- The two kinds of table. -/
inductive TableKind where
  | map
  | properties

/-- The table of the given kind made by putting entries in order. -/
def TableKind.tableOf : TableKind → List (Value × Value) → Value
  | map => mapOf
  | properties => propertiesOf

section Inserted

variable {xs ys : List Value} {es fs : List (Value × Value)}

theorem distinct_keys (es : List (Value × Value)) :
    ((Ordered.ofPairs es).map Prod.fst).Pairwise fun a b => (a == b) = false :=
  (Ordered.tabulates_ofPairs es).distinct

theorem setOf_beq_eq (xs ys : List Value) :
    (setOf xs == setOf ys) = sameMembers (Ordered.ofList xs) (Ordered.ofList ys) :=
  pairOff_eq_sameMembers (Ordered.distinct_ofList xs)

theorem tableOf_beq_eq (kind : TableKind) (es fs : List (Value × Value)) :
    (kind.tableOf es == kind.tableOf fs) =
      sameEntries (Ordered.ofPairs es) (Ordered.ofPairs fs) := by
  rw [← pairOffEntries_eq_sameEntries (distinct_keys es) (distinct_keys fs)]
  cases kind <;> rfl

/-- Sets are equal when the same values were inserted. -/
theorem setOf_beq_iff : (setOf xs == setOf ys) = true ↔ ∀ v, xs.contains v = ys.contains v := by
  refine (set_beq_iff (Ordered.distinct_ofList xs) (Ordered.distinct_ofList ys)).trans ?_
  simp only [Ordered.contains_ofList]

theorem tableOf_beq_iff (kind : TableKind) :
    (kind.tableOf es == kind.tableOf fs) = true ↔
      AnsweredBy (Ordered.ofPairs es) (Ordered.ofPairs fs) ∧
      AnsweredBy (Ordered.ofPairs fs) (Ordered.ofPairs es) := by
  rw [← map_beq_iff (distinct_keys es) (distinct_keys fs)]
  cases kind <;> rfl

/-- The order in which values are inserted makes no difference. -/
theorem setOf_perm (perm : xs.Perm ys) : (setOf xs == setOf ys) = true :=
  setOf_beq_iff.2 fun _ => perm.contains_eq

/-- The order in which keys that are not equal are inserted makes no difference. -/
theorem tableOf_perm (kind : TableKind) (perm : es.Perm fs)
    (distinct : es.Pairwise fun e f => (e.1 == f.1) = false) :
    (kind.tableOf es == kind.tableOf fs) = true := by
  have distinct' : fs.Pairwise fun e f => (e.1 == f.1) = false :=
    distinct.perm perm fun h => BEq.comm.trans h
  have pairs : pairOffEntries es fs = true := by
    rw [pairOffEntries_eq, pairOffBy_iff (uniformEntries es)]
    exact ⟨es, perm.symm, List.forall₂_same.2 (beqEntries_refl es)⟩
  have kept : Ordered.ofPairs es = es := Ordered.ofPairs_of_distinct (List.pairwise_map.2 distinct)
  have kept' : Ordered.ofPairs fs = fs :=
    Ordered.ofPairs_of_distinct (List.pairwise_map.2 distinct')
  rw [tableOf_beq_eq, ← pairOffEntries_eq_sameEntries (distinct_keys es) (distinct_keys fs), kept,
    kept', pairs]

/-! ### Equal values in place of one another -/

theorem inOrder_replaced {v w : Value} (h : (v == w) = true) (before after : List Value) :
    inOrder (before ++ v :: after) (before ++ w :: after) = true := by
  have same (xs : List Value) : List.Forall₂ (beq · · = true) xs xs :=
    List.forall₂_same.2 (beqAll_refl xs)
  exact inOrder_iff.2 (List.rel_append (same before) (.cons h (same after)))

theorem setOf_replaced {v w : Value} (h : (v == w) = true) (before after : List Value) :
    (setOf (before ++ v :: after) == setOf (before ++ w :: after)) = true := by
  refine setOf_beq_iff.2 fun u => ?_
  rw [List.contains_append, List.contains_append, List.contains_cons, List.contains_cons,
    BEq.congr_right h]

theorem answeredBy_replaced {e f : Value × Value} (h : beqEntry e f = true)
    (before after : List (Value × Value)) :
    AnsweredBy (Ordered.ofPairs (before ++ e :: after))
      (Ordered.ofPairs (before ++ f :: after)) := by
  obtain ⟨k, v⟩ := e
  obtain ⟨k', v'⟩ := f
  obtain ⟨hk, hv⟩ := beqEntry_iff.1 h
  intro q u found
  have hq : (q == k) = (q == k') := BEq.congr_right hk
  rw [Ordered.find?_ofPairs, List.reverse_append, List.reverse_cons, List.append_assoc,
    List.lookup_append] at found ⊢
  -- the last of the pairs with an equal key answers
  cases later : after.reverse.lookup q with
  | some w =>
      rw [later] at found
      exact ⟨u, found, BEq.rfl⟩
  | none =>
      rw [later, Option.none_or, List.singleton_append, List.lookup_cons] at found
      rw [Option.none_or, List.singleton_append, List.lookup_cons, ← hq]
      cases here : q == k with
      | true =>
          rw [here] at found
          cases found
          exact ⟨v', rfl, hv⟩
      | false =>
          rw [here] at found
          exact ⟨u, found, BEq.rfl⟩

theorem tableOf_replaced (kind : TableKind) {e f : Value × Value} (h : beqEntry e f = true)
    (before after : List (Value × Value)) :
    (kind.tableOf (before ++ e :: after) == kind.tableOf (before ++ f :: after)) = true := by
  have h' : beqEntry f e = true := by
    obtain ⟨hk, hv⟩ := beqEntry_iff.1 h
    exact beqEntry_iff.2 ⟨BEq.symm hk, BEq.symm hv⟩
  exact (tableOf_beq_iff kind).2
    ⟨answeredBy_replaced h before after, answeredBy_replaced h' before after⟩

end Inserted

/-- A place in a collection, with what stands around it there. -/
inductive Place where
  | array (elementTy : Ty) (before after : List Value)
  | list (before after : List Value)
  | set (before after : List Value)
  | key (kind : TableKind) (before after : List (Value × Value)) (v : Value)
  | stored (kind : TableKind) (before after : List (Value × Value)) (k : Value)

/-- The collection with a value in the place; sets and tables are made by insertion. -/
def Place.fill : Place → Value → Value
  | array elementTy before after, u => .array elementTy (before ++ u :: after)
  | list before after, u => .list (before ++ u :: after)
  | set before after, u => setOf (before ++ u :: after)
  | key kind before after v, u => kind.tableOf (before ++ (u, v) :: after)
  | stored kind before after k, u => kind.tableOf (before ++ (k, u) :: after)

/-- The value in the first of the places, which is in the second of the places, and so on. -/
def within (places : List Place) (v : Value) : Value :=
  places.foldl (fun inner place => place.fill inner) v

theorem fill_congr {v w : Value} (h : (v == w) = true) (place : Place) :
    (place.fill v == place.fill w) = true := by
  cases place with
  | array elementTy before after =>
      exact Bool.and_eq_true_iff.2 ⟨beq_self_eq_true elementTy, inOrder_replaced h before after⟩
  | list before after => exact inOrder_replaced h before after
  | set before after => exact setOf_replaced h before after
  | key kind before after u =>
      exact tableOf_replaced kind (beqEntry_iff.2 ⟨h, beq_refl u⟩) before after
  | stored kind before after k =>
      exact tableOf_replaced kind (beqEntry_iff.2 ⟨beq_refl k, h⟩) before after

/-- **An equal value at any depth makes an equal value.** -/
theorem within_congr : ∀ (places : List Place) {v w : Value}, (v == w) = true →
    (within places v == within places w) = true
  | [], _, _, h => h
  | place :: places, _, _, h => within_congr places (fill_congr h place)

/-! ### What sets and tables rely on -/

/-- **Equality of values is one that sets and tables can rely on.**  It is an equivalence, finer
than that of kinds and of hashes; on collections made by insertion it is equality of size and of
what is looked up; the order of insertion and exchanges of equal values make no difference.  So a
set or a table, however it was filled, answers equal arguments alike and holds no two equal keys. -/
theorem equality_relied_on :
    (∀ v : Value, v == v) ∧
    (∀ v w : Value, v == w → w == v) ∧
    (∀ u v w : Value, u == v → v == w → u == w) ∧
    (∀ v w : Value, v == w → v.kind = w.kind ∧ v.pieces = w.pieces) ∧
    (∀ xs ys, (setOf xs == setOf ys) = sameMembers (Ordered.ofList xs) (Ordered.ofList ys)) ∧
    (∀ (kind : TableKind) es fs, (kind.tableOf es == kind.tableOf fs) =
      sameEntries (Ordered.ofPairs es) (Ordered.ofPairs fs)) ∧
    (∀ xs ys, xs.Perm ys → setOf xs == setOf ys) ∧
    (∀ (kind : TableKind) es fs, es.Perm fs → es.Pairwise (fun e f => (e.1 == f.1) = false) →
      kind.tableOf es == kind.tableOf fs) ∧
    (∀ places v w, v == w → within places v == within places w) ∧
    (∀ xs : List Value, (Ordered.ofList xs).Pairwise (fun x y => (x == y) = false) ∧
      ∀ v w, v == w → (Ordered.ofList xs).contains v = (Ordered.ofList xs).contains w) ∧
    ∀ es : List (Value × Value),
      (Ordered.ofPairs es).Pairwise (fun e f => (e.1 == f.1) = false) ∧
      ∀ k k', k == k' →
        Ordered.find? (Ordered.ofPairs es) k = Ordered.find? (Ordered.ofPairs es) k' := by
  refine ⟨fun v => BEq.rfl, fun v w h => BEq.symm h, fun u v w huv hvw => BEq.trans huv hvw,
    fun v w h => ⟨kind_eq_of_beq h, pieces_congr v w h⟩, setOf_beq_eq, tableOf_beq_eq,
    fun xs ys perm => setOf_perm perm, fun kind es fs perm => tableOf_perm kind perm,
    fun places v w h => within_congr places h, fun xs => ⟨Ordered.distinct_ofList xs, ?_⟩,
    fun es => ⟨List.pairwise_map.1 (distinct_keys es), ?_⟩⟩
  · exact fun v w h => List.contains_congr h
  · exact fun k k' h => Ordered.find?_congr h _

/-- Two sets of a NaN and the two zeros are filled in different orders.  They are exchanged as a key
of a map that is a member of a set in a list, and looked up for one another. -/
theorem equality_relied_on_of_zeros :
    let nan := decimal ⟨0x7ff8000000000000⟩
    let zeros := setOf [nan, decimal (.zero false), decimal (.zero true)]
    let zeros' := setOf [decimal (.zero false), nan, decimal (.zero true)]
    let places := [.key .map [(null, null)] [(nan, zeros)] (int 1), .set [null] [zeros], .list [] []]
    (zeros == zeros') = true ∧ (within places zeros == within places zeros') = true ∧
      (mapOf [(zeros, int 1), (nan, int 2)] == mapOf [(nan, int 2), (zeros, int 1)]) = true ∧
      Ordered.find? (Ordered.ofPairs [(nan, int 2), (zeros, int 1)]) zeros' =
        Ordered.find? (Ordered.ofPairs [(nan, int 2), (zeros, int 1)]) zeros := by
  intro nan zeros zeros' places
  obtain ⟨-, symm, -, -, -, -, perm, permPairs, replaced, -, lookup⟩ := equality_relied_on
  have same : zeros == zeros' := perm _ _ (.swap _ _ _)
  have apart : [(zeros, int 1), (nan, int 2)].Pairwise fun e f => (e.1 == f.1) = false := by
    decide
  exact ⟨same, replaced places _ _ same, permPairs .map _ _ (.swap _ _ _) apart,
    (lookup _).2 _ _ (symm _ _ same)⟩

end Value

end Wiring
