import Mathlib.Data.Finset.Dedup
import Mathlib.Data.Finset.Card
import Mathlib.Data.List.Nodup
import Wiring.Edges
import Wiring.Proofs.Ordered

/-!
# Edges — what was registered

Edges are registered by calls, each with a source and a target (`Edges.registerAll`).  The targets of
a source depend on the calls of that source alone, so calls of different sources may come in any
order: `Interleaves` says that calls take their targets from queues, one queue for each source.

**The relation holds what was registered, each edge once, in order of first registration**
(`registered_relation`), and it is the same however the queues are interleaved.
-/

namespace Wiring.Edges

/-- Registers the edges in order, and tells of each whether it was new. -/
def registerAll (edges : Edges) : List (String × String) → List Bool × Edges
  | [] => ([], edges)
  | (source, target) :: calls =>
    let first := edges.register source target
    let rest := registerAll first.2 calls
    (first.1 :: rest.1, rest.2)

/-- The relation after the calls, none having been made before. -/
def registered (calls : List (String × String)) : Edges :=
  (registerAll {} calls).2

/-- The targets the source is registered with, in order. -/
def targetsOf (source : String) (calls : List (String × String)) : List String :=
  (calls.filter (·.1 = source)).map Prod.snd

/-- Each call takes the next target from the queue of its source, until all queues are empty. -/
inductive Interleaves : (String → List String) → List (String × String) → Prop where
  | done {queues : String → List String} (empty : ∀ source, queues source = []) :
      Interleaves queues []
  | next {queues : String → List String} {source target : String} {rest : List String}
      {calls : List (String × String)} (head : queues source = target :: rest)
      (later : Interleaves (Function.update queues source rest) calls) :
      Interleaves queues ((source, target) :: calls)

variable {edges edges' : Edges} {source target : String} {calls : List (String × String)}

/-! ### One source -/

theorem mem_targetsOf : target ∈ targetsOf source calls ↔ (source, target) ∈ calls := by
  simp [targetsOf]

theorem targetsOf_cons (source : String) (e : String × String) (calls : List (String × String)) :
    targetsOf source (e :: calls) =
      if e.1 = source then e.2 :: targetsOf source calls else targetsOf source calls := by
  by_cases h : e.1 = source <;> simp [targetsOf, h]

/-- Only its own calls change the targets of a source. -/
theorem targets_registerAll (source : String) : ∀ (calls : List (String × String)) (edges : Edges),
    (edges.registerAll calls).2.targets source =
      (targetsOf source calls).foldl Ordered.add (edges.targets source)
  | [], _ => rfl
  | (name, target) :: calls, edges => by
      rw [registerAll, targetsOf_cons]
      dsimp only
      rw [targets_registerAll source calls, targets_register]
      by_cases h : name = source
      · subst h
        simp
      · simp [h, Ne.symm h]

theorem targets_registered (source : String) (calls : List (String × String)) :
    (registered calls).targets source = Ordered.firsts (targetsOf source calls) := by
  rw [registered, targets_registerAll, ← Ordered.ofList_eq_firsts]
  rfl

theorem contains_registered :
    (registered calls).contains source target ↔ (source, target) ∈ calls := by
  rw [contains, List.contains_iff_mem, targets_registered, ← Ordered.ofList_eq_firsts,
    Ordered.mem_ofList, mem_targetsOf]

theorem hasSource_registered :
    (registered calls).hasSource source ↔ ∃ target, (source, target) ∈ calls := by
  constructor
  · intro h
    rw [hasSource, Bool.not_eq_true', List.isEmpty_eq_false_iff_exists_mem] at h
    obtain ⟨target, h⟩ := h
    exact ⟨target, contains_registered.1 (List.contains_iff_mem.2 h)⟩
  · rintro ⟨target, h⟩
    exact hasSource_of_contains (contains_registered.2 h)

/-! ### The answers -/

theorem length_registerAll : ∀ (calls : List (String × String)) (edges : Edges),
    (edges.registerAll calls).1.length = calls.length
  | [], _ => rfl
  | (_, _) :: calls, _ => congrArg (· + 1) (length_registerAll calls _)

/-- A call is answered by the relation that the calls before it have made. -/
theorem answer_registerAll (e : String × String) (after : List (String × String)) :
    ∀ (before : List (String × String)) (edges : Edges),
      (edges.registerAll (before ++ e :: after)).1[before.length]? =
        some (!(edges.registerAll before).2.contains e.1 e.2)
  | [], _ => rfl
  | (source, target) :: before, edges =>
      answer_registerAll e after before (edges.register source target).2

theorem answers_registered (calls : List (String × String)) :
    (registerAll {} calls).1 = calls.mapIdx fun i e => decide (e ∉ calls.take i) := by
  refine List.ext_getElem (by rw [length_registerAll, List.length_mapIdx]) fun i hi hi' => ?_
  have bound : i < calls.length := by rwa [List.length_mapIdx] at hi'
  have answer := answer_registerAll calls[i] (calls.drop (i + 1)) (calls.take i) {}
  rw [List.getElem_cons_drop, List.take_append_drop, List.length_take_of_le bound.le] at answer
  rw [List.getElem_mapIdx, ← Option.some_inj, ← List.getElem?_eq_getElem, answer, decide_not]
  exact congrArg (some !·) (Bool.eq_iff_iff.2 (contains_registered.trans decide_eq_true_iff.symm))

/-! ### The count -/

/-- The edges, source by source. -/
def pairs (edges : Edges) : List (String × String) :=
  edges.bySource.entries.flatMap fun e => e.2.map (e.1, ·)

theorem size_eq_length_pairs (edges : Edges) : edges.size = edges.pairs.length := by
  have counted : ∀ (es : List (String × List String)) (n : Nat),
      es.foldl (fun n e => n + e.2.length) n =
        n + (es.flatMap fun e => e.2.map (e.1, ·)).length := by
    intro es
    induction es with
    | nil => exact fun n => rfl
    | cons e es ih =>
        intro n
        rw [List.foldl_cons, ih, List.flatMap_cons, List.length_append, List.length_map,
          Nat.add_assoc]
  exact (counted edges.bySource.entries 0).trans (Nat.zero_add _)

theorem mem_pairs : (source, target) ∈ edges.pairs ↔ edges.contains source target := by
  rw [pairs, contains, List.contains_iff_mem, targets]
  simp only [List.mem_flatMap, List.mem_map, Prod.mk.injEq]
  constructor
  · rintro ⟨⟨name, ts⟩, he, t, ht, rfl, rfl⟩
    rw [Table.mem_entries.1 he]
    exact ht
  · intro h
    cases hget : edges.bySource.get? source with
    | none => simp [hget] at h
    | some ts =>
        rw [hget] at h
        exact ⟨(source, ts), Table.mem_entries.2 hget, target, h, rfl, rfl⟩

/-- No edge is there twice when no target of a source is. -/
theorem nodup_pairs (distinct : ∀ source, (edges.targets source).Nodup) : edges.pairs.Nodup := by
  refine List.nodup_flatMap.2 ⟨fun e he => ?_, edges.bySource.sorted.imp fun {e f} hlt => ?_⟩
  · have targets : edges.targets e.1 = e.2 := by rw [Edges.targets, Table.mem_entries.1 he]; rfl
    exact (targets ▸ distinct e.1).map fun _ _ h => (Prod.mk.inj h).2
  · intro pair he hf
    obtain ⟨_, _, rfl⟩ := List.mem_map.1 he
    obtain ⟨_, _, h⟩ := List.mem_map.1 hf
    exact String.lt_irrefl e.1 ((Prod.mk.inj h).1 ▸ hlt)

theorem size_registered (calls : List (String × String)) :
    (registered calls).size = calls.toFinset.card := by
  have distinct : (registered calls).pairs.Nodup := nodup_pairs fun source => by
    rw [targets_registered, ← Ordered.ofList_eq_firsts]
    exact Ordered.nodup_ofList _
  have same : (registered calls).pairs.toFinset = calls.toFinset := by
    ext ⟨source, target⟩
    rw [List.mem_toFinset, List.mem_toFinset, mem_pairs, contains_registered]
  rw [size_eq_length_pairs, ← same, List.toFinset_card_of_nodup distinct]

theorem isEmpty_registered : (registered calls).isEmpty ↔ calls = [] := by
  rw [isEmpty, beq_iff_eq, size_registered, Finset.card_eq_zero, List.toFinset_eq_empty_iff]

/-! ### Other orders -/

/-- Every source that is known has a target. -/
def Full (edges : Edges) : Prop :=
  ∀ source ts, edges.bySource.get? source = some ts → ts ≠ []

theorem full_register (full : edges.Full) (source target : String) :
    (edges.register source target).2.Full := by
  intro name ts h
  rw [register, Table.get?_insert] at h
  split at h
  · cases h
    exact List.ne_nil_of_mem (Ordered.mem_add.2 (.inr rfl))
  · exact full name ts h

theorem full_registerAll : ∀ (calls : List (String × String)) {edges : Edges}, edges.Full →
    (edges.registerAll calls).2.Full
  | [], _, full => full
  | (source, target) :: calls, _, full =>
      full_registerAll calls (full_register full source target)

/-- Relations with the same targets are the same. -/
theorem ext_targets (full : edges.Full) (full' : edges'.Full)
    (same : ∀ source, edges.targets source = edges'.targets source) : edges = edges' := by
  have answers : ∀ source, edges.bySource.get? source = edges'.bySource.get? source := by
    intro source
    have targets := same source
    rw [Edges.targets, Edges.targets] at targets
    cases h : edges.bySource.get? source <;> cases h' : edges'.bySource.get? source <;>
      simp only [h, h', Option.getD_none, Option.getD_some] at targets
    · rfl
    · exact absurd targets.symm (full' source _ h')
    · exact absurd targets (full source _ h)
    · rw [targets]
  obtain ⟨bySource⟩ := edges
  obtain ⟨bySource'⟩ := edges'
  exact congrArg Edges.mk (Table.ext_get? answers)

theorem registered_congr {calls' : List (String × String)}
    (same : ∀ source, targetsOf source calls = targetsOf source calls') :
    registered calls = registered calls' := by
  have full : ∀ calls, (registered calls).Full := fun calls => full_registerAll calls nofun
  refine ext_targets (full calls) (full calls') fun source => ?_
  rw [targets_registered, targets_registered, same]

/-- Calls are taken from queues that hold the targets of each source, in order. -/
theorem interleaves_iff {queues : String → List String} :
    Interleaves queues calls ↔ ∀ source, targetsOf source calls = queues source := by
  constructor
  · intro h source
    induction h with
    | done empty => rw [empty]; rfl
    | @next queues name target rest calls head later ih =>
        rw [targetsOf_cons, ih]
        by_cases hname : name = source
        · subst hname
          simp [head]
        · simp [hname, Function.update_of_ne (Ne.symm hname)]
  · intro h
    induction calls generalizing queues with
    | nil => exact .done fun source => (h source).symm
    | cons e calls ih =>
        have head := h e.1
        rw [targetsOf_cons, if_pos rfl] at head
        refine .next head.symm (ih fun source => ?_)
        by_cases hname : e.1 = source
        · subst hname
          simp
        · rw [Function.update_of_ne (Ne.symm hname), ← h, targetsOf_cons, if_neg hname]

/-! ### What was registered -/

/-- **The relation holds what was registered, each edge once, in order of first registration.** -/
theorem registered_relation (calls : List (String × String)) :
    (registerAll {} calls).1 = (calls.mapIdx fun i e => decide (e ∉ calls.take i)) ∧
    (∀ source target, (registered calls).contains source target ↔ (source, target) ∈ calls) ∧
    (∀ source, (registered calls).targets source = Ordered.firsts (targetsOf source calls)) ∧
    (∀ source, (registered calls).hasSource source ↔ ∃ target, (source, target) ∈ calls) ∧
    (registered calls).size = calls.toFinset.card ∧
    ((registered calls).isEmpty ↔ calls = []) ∧
    ∀ queues calls', Interleaves queues calls → Interleaves queues calls' →
      registered calls' = registered calls := by
  refine ⟨answers_registered calls, fun _ _ => contains_registered,
    fun source => targets_registered source calls, fun _ => hasSource_registered,
    size_registered calls, isEmpty_registered, fun queues calls' h h' => ?_⟩
  exact registered_congr fun source =>
    (interleaves_iff.1 h' source).trans (interleaves_iff.1 h source).symm

/-- One edge is registered again, and a source is also a target.  The calls of the two sources may
come in another order. -/
theorem registered_relation_of_services :
    let calls := [("db", "service"), ("service", "web"), ("db", "audit"), ("db", "service")]
    let calls' := [("db", "service"), ("db", "audit"), ("db", "service"), ("service", "web")]
    Interleaves (targetsOf · calls) calls ∧ Interleaves (targetsOf · calls) calls' ∧
      (registerAll {} calls).1 = [true, true, true, false] ∧
      (registered calls).targets "db" = ["service", "audit"] ∧
      (registered calls).size = 3 ∧ registered calls' = registered calls := by
  intro calls calls'
  have order : Interleaves (targetsOf · calls) calls := interleaves_iff.2 fun _ => rfl
  have order' : Interleaves (targetsOf · calls) calls' := by
    refine interleaves_iff.2 fun source => ?_
    by_cases hdb : "db" = source
    · subst hdb
      rfl
    · simp [calls, calls', targetsOf_cons, hdb]
  obtain ⟨answers, -, targets, -, size, -, same⟩ := registered_relation calls
  refine ⟨order, order', ?_, ?_, ?_, same _ _ order order'⟩
  · rw [answers]
    decide
  · rw [targets]
    decide
  · rw [size]
    decide

end Wiring.Edges
