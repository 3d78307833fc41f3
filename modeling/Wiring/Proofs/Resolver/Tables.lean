import Wiring.Proofs.Ordered
import Wiring.Proofs.Resolver.Faults
import Wiring.Proofs.Value.Equality
import Wiring.Script

/-!
# Resolver — maps and properties

A map's entries are resolved one after the other, each key at the map's own path and each value at
the path that its key adds (`Resolver.entryValues`); of properties the texts are evaluated
(`Resolver.textValues`).

**The table that is made of the entries' keys and values has the first key of all equal ones with
the value of the last one** (`resolved_tables`).  The path of a value shows the key of its own entry,
also where the table keeps an equal one.  Properties are resolved exactly when their keys and values
are, and none of them is null.
-/

namespace Wiring

variable {σ α β γ : Type}

namespace Action

theorem reach_map_eq_some {x : Action σ α} {f : α → β} {s s' : σ} {b : β} :
    (do return f (← x)).reach s = some (b, s') ↔ ∃ a, x.reach s = some (a, s') ∧ f a = b := by
  rw [reach_bind_eq_some]
  constructor
  · rintro ⟨a, mid, ha, h⟩
    rw [reach_pure] at h
    cases h
    exact ⟨a, ha, rfl⟩
  · rintro ⟨a, ha, rfl⟩
    exact ⟨a, s', ha, rfl⟩

/-- A pair is had when both its parts are, the second from where the first ended. -/
theorem reach_pair_eq_some {x : Action σ α} {y : α → Action σ β} {s s' : σ} {a : α} {b : β} :
    (do let a ← x; let b ← y a; return (a, b)).reach s = some ((a, b), s') ↔
      ∃ mid, x.reach s = some (a, mid) ∧ (y a).reach mid = some (b, s') := by
  rw [reach_bind_eq_some]
  simp only [reach_map_eq_some]
  constructor
  · rintro ⟨_, mid, ha, _, hb, ⟨⟩⟩
    exact ⟨mid, ha, hb⟩
  · rintro ⟨mid, ha, hb⟩
    exact ⟨a, mid, ha, b, hb, rfl⟩

/-- The results for a list are those for its first item and for the rest, from where that ended. -/
theorem reach_mapM_cons_eq_some {f : α → Action σ β} {a : α} {as : List α} {s s' : σ}
    {results : List β} :
    ((a :: as).mapM f).reach s = some (results, s') ↔
      ∃ mid b bs, (f a).reach s = some (b, mid) ∧ (as.mapM f).reach mid = some (bs, s') ∧
        results = b :: bs := by
  rw [List.mapM_cons, reach_bind_eq_some]
  simp only [reach_map_eq_some]
  constructor
  · rintro ⟨b, mid, hb, bs, hbs, rfl⟩
    exact ⟨mid, b, bs, hb, hbs, rfl⟩
  · rintro ⟨mid, b, bs, hb, hbs, rfl⟩
    exact ⟨b, mid, hb, bs, hbs, rfl⟩

end Action

namespace Resolver

/-- The key and the value of an entry of the map at the path. -/
def entryValues (r : Resolver σ) (path : ArgPath) (e : Raw × Raw) : Action σ (Value × Value) := do
  let k ← Action.valueOf (r.resolve path e.1)
  let v ← Action.valueOf (r.resolve (path.key k) e.2)
  return (k, v)

/-- The key and the value of an entry of properties. -/
def textValues (r : Resolver σ) (e : Literal × Literal) : Action σ (Value × Value) := do
  let k ← Action.valueOf (r.evaluateLiteral e.1)
  let v ← Action.valueOf (r.evaluateLiteral e.2)
  return (k, v)

variable {r : Resolver σ} {path : ArgPath}

theorem valueOf_resolveEntries (r : Resolver σ) (path : ArgPath) (es : List (Raw × Raw)) :
    Action.valueOf (r.resolveEntries path es) = es.mapM (r.entryValues path) := by
  induction es with
  | nil => rfl
  | cons e es ih =>
      rw [valueOf_resolveEntries_cons, List.mapM_cons, entryValues, ih]
      simp only [bind_assoc, pure_bind]

/-- An entry of properties has its values when its texts have, and neither of these is null. -/
theorem reachProperty_iff {k v : Literal} {s s' : σ} {kv vv : Value} :
    r.reachProperty k v s = some (kv, vv, s') ↔
      (r.textValues (k, v)).reach s = some ((kv, vv), s') ∧
        kv.isNull = false ∧ vv.isNull = false := by
  rw [textValues, Action.reach_pair_eq_some, ← Bool.or_eq_false_iff]
  constructor
  · intro h
    obtain ⟨mid, hk, hv, nonnull⟩ := exists_of_reachProperty h
    exact ⟨⟨mid, hk, hv⟩, nonnull⟩
  · rintro ⟨⟨mid, hk, hv⟩, nonnull⟩
    exact reachProperty_eq_some hk hv nonnull

/-- Properties have their values when the texts have, and none of these is null. -/
theorem reach_resolveProperties {es : List (Literal × Literal)} {results : List (Value × Value)}
    {s s' : σ} :
    reach (r.resolveProperties path es) s = some (results, s') ↔
      (es.mapM r.textValues).reach s = some (results, s') ∧
        ∀ e ∈ results, e.1.isNull = false ∧ e.2.isNull = false := by
  induction es generalizing results s with
  | nil =>
      constructor
      · rintro ⟨⟩
        exact ⟨rfl, List.forall_mem_nil _⟩
      · rintro ⟨⟨⟩, -⟩
        rfl
  | cons e es ih =>
      obtain ⟨k, v⟩ := e
      rw [reach_resolveProperties_cons, Action.reach_mapM_cons_eq_some]
      constructor
      · intro h
        obtain ⟨⟨kv, vv, mid⟩, entry, h⟩ := Option.bind_eq_some_iff.1 h
        obtain ⟨⟨rest, s''⟩, hrest, h⟩ := Option.map_eq_some_iff.1 h
        cases h
        obtain ⟨texts, notNull⟩ := reachProperty_iff.1 entry
        obtain ⟨behind, others⟩ := ih.1 hrest
        exact ⟨⟨mid, (kv, vv), rest, texts, behind, rfl⟩,
          List.forall_mem_cons.2 ⟨notNull, others⟩⟩
      · rintro ⟨⟨mid, ⟨kv, vv⟩, rest, texts, behind, rfl⟩, nonnull⟩
        obtain ⟨notNull, others⟩ := List.forall_mem_cons.1 nonnull
        refine Option.bind_eq_some_iff.2 ⟨(kv, vv, mid), reachProperty_iff.2 ⟨texts, notNull⟩, ?_⟩
        exact Option.map_eq_some_iff.2 ⟨(rest, s'), ih.2 ⟨behind, others⟩, rfl⟩

/-! ### The place of a value -/

/-- A value of a map is resolved below the key of its own entry. -/
theorem visit_value : ∀ {es : List (Raw × Raw)} {results : List (Value × Value)} {s s' : σ} {j : Nat}
    {k v : Value}, (es.mapM (r.entryValues path)).reach s = some (results, s') →
      results[j]? = some (k, v) → ∃ raw mid after, es[j]?.map Prod.snd = some raw ∧
        r.visitEntries? path es s [j, 1] = some (.value (path.key k) .any raw mid) ∧
        reach (r.resolve (path.key k) raw) mid = some (v, after)
  | [], _, _, _, _, _, _, h, hj => by
      cases h
      cases hj
  | (key, value) :: es, _, s, s', j, k, v, h, hj => by
      obtain ⟨mid, ⟨kv, vv⟩, rest, entry, behind, rfl⟩ := Action.reach_mapM_cons_eq_some.1 h
      obtain ⟨inner, hk, hv⟩ := Action.reach_pair_eq_some.1 entry
      rw [Action.reach_valueOf] at hk hv
      cases j with
      | zero =>
          cases hj
          refine ⟨value, inner, mid, rfl, ?_, hv⟩
          rw [visitEntries?, hk, Option.bind_some]
          dsimp only
          rw [visit?]
      | succ j =>
          obtain ⟨raw, before, after, hraw, visited, hafter⟩ := visit_value behind hj
          refine ⟨raw, before, after, hraw, ?_, hafter⟩
          rw [visitEntries?, hk, Option.bind_some]
          dsimp only at hv ⊢
          rw [hv]
          exact visited

/-! ### Tables -/

/-- **A resolved table has the first key of all equal ones, with the value of the last one.** -/
theorem resolved_tables (r : Resolver σ) (path : ArgPath) (s : σ) :
    (∀ es v s', reach (r.resolve path (.map es)) s = some (v, s') ↔
      ∃ results table, (es.mapM (r.entryValues path)).reach s = some (results, s') ∧
        Ordered.Tabulates results table ∧ v = .map table) ∧
    (∀ es results s' j k v, (es.mapM (r.entryValues path)).reach s = some (results, s') →
      results[j]? = some (k, v) → ∃ raw mid after, es[j]?.map Prod.snd = some raw ∧
        r.visit? path .any (.map es) s [j, 1] = some (.value (path.key k) .any raw mid) ∧
        reach (r.resolve (path.key k) raw) mid = some (v, after)) ∧
    (∀ es v s', reach (r.resolve path (.properties es)) s = some (v, s') ↔
      ∃ results table, (es.mapM r.textValues).reach s = some (results, s') ∧
        (∀ e ∈ results, e.1.isNull = false ∧ e.2.isNull = false) ∧
        Ordered.Tabulates results table ∧ v = .properties table) ∧
    (∀ es, (reach (r.resolve path (.properties es)) s).isSome ↔
      ∃ results s', (es.mapM r.textValues).reach s = some (results, s') ∧
        ∀ e ∈ results, e.1.isNull = false ∧ e.2.isNull = false) := by
  have maps (es v s') : reach (r.resolve path (.map es)) s = some (v, s') ↔
      ∃ results, (es.mapM (r.entryValues path)).reach s = some (results, s') ∧
        .map (Ordered.ofPairs results) = v := by
    rw [← Action.reach_valueOf, valueOf_resolve_map, Action.reach_map_eq_some,
      valueOf_resolveEntries]
    rfl
  have properties (es v s') : reach (r.resolve path (.properties es)) s = some (v, s') ↔
      ∃ results, ((es.mapM r.textValues).reach s = some (results, s') ∧
        ∀ e ∈ results, e.1.isNull = false ∧ e.2.isNull = false) ∧
          .properties (Ordered.ofPairs results) = v := by
    rw [← Action.reach_valueOf, valueOf_resolve_properties, Action.reach_map_eq_some]
    simp only [Action.reach_valueOf, reach_resolveProperties]
    rfl
  refine ⟨fun es v s' => ?_, fun es results s' j k v h hj => ?_, fun es v s' => ?_, fun es => ?_⟩
  · rw [maps]
    constructor
    · rintro ⟨results, h, rfl⟩
      exact ⟨results, _, h, Ordered.tabulates_ofPairs results, rfl⟩
    · rintro ⟨results, table, h, tabulates, rfl⟩
      exact ⟨results, h, by rw [Ordered.tabulates_iff.1 tabulates]⟩
  · exact visit_value h hj
  · rw [properties]
    constructor
    · rintro ⟨results, ⟨h, nonnull⟩, rfl⟩
      exact ⟨results, _, h, nonnull, Ordered.tabulates_ofPairs results, rfl⟩
    · rintro ⟨results, table, h, nonnull, tabulates, rfl⟩
      exact ⟨results, ⟨h, nonnull⟩, by rw [Ordered.tabulates_iff.1 tabulates]⟩
  · rw [Option.isSome_iff_exists, Prod.exists]
    simp only [properties]
    constructor
    · rintro ⟨_, s', results, h, -⟩
      exact ⟨results, s', h⟩
    · rintro ⟨results, s', h⟩
      exact ⟨_, s', results, h, rfl⟩

/-- Of the two sets, which are equal, the table keeps the first one, with the value of the second. -/
theorem resolved_tables_of_sets :
    let r : Resolver Unit := {
      collaborators := ({} : Script).collaborators, bean := "owner"
      blueprint := ⟨0, none, .singleton, [], false, none, [], []⟩ }
    let es : List (Raw × Raw) := [
      (.value (.set [.int 1, .int 2]), .value (.int 10)),
      (.literal { text := some "a" }, .value (.int 20)),
      (.value (.set [.int 2, .int 1]), .value (.int 30))]
    let results : List (Value × Value) := [
      (.set [.int 1, .int 2], .int 10), (.string "a", .int 20), (.set [.int 2, .int 1], .int 30)]
    (es.mapM (r.entryValues (.root "p"))).reach () = some (results, ()) ∧
      results[2]? = some (.set [.int 2, .int 1], .int 30) ∧
      reach (r.resolve (.root "p") (.map es)) () =
        some (.map [(.set [.int 1, .int 2], .int 30), (.string "a", .int 20)], ()) ∧
      ∃ raw mid after, es[2]?.map Prod.snd = some raw ∧
        r.visit? (.root "p") .any (.map es) () [2, 1] =
          some (.value (.key (.root "p") (.set [.int 2, .int 1])) .any raw mid) ∧
        reach (r.resolve (.key (.root "p") (.set [.int 2, .int 1])) raw) mid =
          some (.int 30, after) := by
  intro r es results
  obtain ⟨maps, places, -⟩ := resolved_tables r (.root "p") ()
  have had : (es.mapM (r.entryValues (.root "p"))).reach () = some (results, ()) := rfl
  have third : results[2]? = some (.set [.int 2, .int 1], .int 30) := rfl
  refine ⟨had, third, (maps es _ ()).2 ⟨results, _, had, Ordered.tabulates_iff.2 rfl, rfl⟩, ?_⟩
  exact places es results () 2 _ _ had third

end Resolver

end Wiring
