import Wiring.Proofs.Resolver.Paths
import Wiring.Script

/-!
# Resolver — string arrays

Of the values that stand in a blueprint as they are, strings and string arrays are evaluated.  The
items of a string array are evaluated one after the other (`Resolver.Evaluates`).

**A string array stays the array it is, unless evaluation changes one of its items: then it becomes
an array of what the items evaluate to** (`string_arrays_evaluated`), with whatever kinds of values
come of them, before and behind the change.  Each item is evaluated once, up to the first one that
fails, and the array fails with the same error.  Of any other value nothing is evaluated, however
many texts there are inside it.
-/

namespace Wiring.Resolver

variable {σ : Type} {r : Resolver σ} {items : List String} {values : List Value} {s s' : σ}

/-- The texts evaluate to the values, each from the state that the one before it left. -/
inductive Evaluates (r : Resolver σ) : List String → σ → List Value → σ → Prop where
  | nil (s : σ) : Evaluates r [] s [] s
  | cons {text : String} {texts : List String} {v : Value} {vs : List Value} {s mid s' : σ}
      (first : (r.evaluateText text).run s = (.ok v, mid)) (rest : Evaluates r texts mid vs s') :
      Evaluates r (text :: texts) s (v :: vs) s'

/-- The call that asks for the value of a text. -/
def evaluation (r : Resolver σ) (text : String) : Call :=
  .evaluate text r.blueprint

/-- How a string array is resolved from the state `s`: what is asked, what comes of it, and the state
at the end. -/
inductive ArrayRun (r : Resolver σ) (items : List String) (s : σ) :
    List Call → Except Stop Value → σ → Prop where
  /-- Every item evaluates to itself. -/
  | same {s' : σ} (evaluated : r.Evaluates items s (items.map .string) s') :
      ArrayRun r items s (items.map r.evaluation) (.ok (.stringArray items)) s'
  /-- Every item has a value, and not every one is the item itself. -/
  | changed {values : List Value} {s' : σ} (evaluated : r.Evaluates items s values s')
      (different : values ≠ items.map .string) :
      ArrayRun r items s (items.map r.evaluation) (.ok (.array .any values)) s'
  /-- An item fails; those behind it are not evaluated. -/
  | failed {before after : List String} {text : String} {values : List Value} {stop : Stop}
      {mid s' : σ} (split : items = before ++ text :: after)
      (evaluated : r.Evaluates before s values mid)
      (fails : (r.evaluateText text).run mid = (.error stop, s')) :
      ArrayRun r items s ((before ++ [text]).map r.evaluation) (.error stop) s'

/-! ### Items and their values -/

theorem Evaluates.length_eq (h : r.Evaluates items s values s') :
    values.length = items.length := by
  induction h with
  | nil => rfl
  | cons first rest ih => rw [List.length_cons, List.length_cons, ih]

/-- The value in a place is what the item in that place evaluates to, after the items before it. -/
theorem Evaluates.value_at (h : r.Evaluates items s values s') {i : Nat} {item : String}
    (hi : items[i]? = some item) : ∃ v mid after,
      r.Evaluates (items.take i) s (values.take i) mid ∧
      (r.evaluateText item).run mid = (.ok v, after) ∧ values[i]? = some v := by
  induction h generalizing i with
  | nil => cases hi
  | @cons text texts v vs s mid s' first rest ih =>
      cases i with
      | zero =>
          cases hi
          exact ⟨v, s, mid, .nil s, first, rfl⟩
      | succ i =>
          obtain ⟨w, between, after, evaluated, had, found⟩ := ih hi
          exact ⟨w, between, after, .cons first evaluated, had, found⟩

theorem string?_eq_some {v : Value} {text : String} :
    (v.string? == some text) = true ↔ v = .string text := by
  cases v <;> simp [Value.string?]

/-- As many values are unchanged when each is the string it was evaluated from. -/
theorem unchanged_iff : ∀ {items : List String} {values : List Value},
    values.length = items.length →
      (unchanged items values = true ↔ values = items.map .string)
  | [], [], _ => ⟨fun _ => rfl, fun _ => rfl⟩
  | item :: items, v :: values, length => by
      have rest := @unchanged_iff items values (Nat.succ.inj length)
      rw [unchanged] at rest
      rw [unchanged, List.zip_cons_cons, List.all_cons, Bool.and_eq_true, rest, string?_eq_some,
        List.map_cons, List.cons_eq_cons]

/-! ### The evaluation of all items -/

/-- The items are evaluated in turn, all of them or up to the first one that fails, and nothing else
is asked. -/
theorem run_items (r : Resolver σ) : ∀ (items : List String) (s : σ) (calls : List Call),
    (∃ values s', r.Evaluates items s values s' ∧
      (items.mapM r.traced.evaluateText).run ⟨s, calls⟩ =
        (.ok values, ⟨s', calls ++ items.map r.evaluation⟩)) ∨
    ∃ before text after values mid stop s', items = before ++ text :: after ∧
      r.Evaluates before s values mid ∧ (r.evaluateText text).run mid = (.error stop, s') ∧
      (items.mapM r.traced.evaluateText).run ⟨s, calls⟩ =
        (.error stop, ⟨s', calls ++ (before ++ [text]).map r.evaluation⟩)
  | [], s, calls => .inl ⟨[], s, .nil s, by rw [List.map_nil, List.append_nil]; rfl⟩
  | item :: items, s, calls => by
      have asked : (r.traced.evaluateText item).run ⟨s, calls⟩ =
          (((r.evaluateText item).run s).1,
            ⟨((r.evaluateText item).run s).2, calls ++ [r.evaluation item]⟩) := rfl
      rw [List.mapM_cons, Action.run_bind, asked]
      rcases first : (r.evaluateText item).run s with ⟨stop | v, mid⟩
      · exact .inr ⟨[], item, items, [], s, stop, mid, rfl, .nil s, first, rfl⟩
      · dsimp only
        rw [Action.run_bind]
        rcases run_items r items mid (calls ++ [r.evaluation item]) with
          ⟨values, s', evaluated, run⟩ |
          ⟨before, text, after, values, mid', stop, s', rfl, evaluated, fails, run⟩
        · refine .inl ⟨v :: values, s', .cons first evaluated, ?_⟩
          rw [run, List.append_assoc]
          rfl
        · refine .inr ⟨item :: before, text, after, v :: values, mid', stop, s', rfl,
            .cons first evaluated, fails, ?_⟩
          rw [run, List.append_assoc]
          rfl

/-- A string array is resolved as its items are evaluated. -/
theorem resolve_stringArray (r : Resolver σ) (path : ArgPath) (items : List String) (s : σ) :
    ∃ outcome s', r.resolve path (.value (.stringArray items)) s =
        (⟨.value (.stringArray items), outcome⟩, s') ∧
      r.ArrayRun items s (r.calls path (.value (.stringArray items)) s) outcome s' := by
  -- the trace tells the calls, and otherwise goes as the resolution does
  obtain ⟨same, state⟩ := r.resolve_traced path (.value (.stringArray items)) s []
  have traced : r.traced.resolve path (.value (.stringArray items)) ⟨s, []⟩ =
      (⟨.value (.stringArray items), ((r.traced.resolveValue (.stringArray items)).run ⟨s, []⟩).1⟩,
        ((r.traced.resolveValue (.stringArray items)).run ⟨s, []⟩).2) := rfl
  rw [traced] at same state
  refine ⟨_, _, Prod.ext same.symm state.symm, ?_⟩
  rw [calls, traced, resolveValue, Action.run_bind]
  rcases r.run_items items s [] with
    ⟨values, s', evaluated, run⟩ |
    ⟨before, text, after, values, mid, stop, s', split, evaluated, fails, run⟩
  · rw [run]
    dsimp only
    split
    next kept =>
      obtain rfl := (unchanged_iff evaluated.length_eq).1 kept
      exact .same evaluated
    next kept => exact .changed evaluated (mt (unchanged_iff evaluated.length_eq).2 kept)
  · rw [run]
    exact .failed split evaluated fails

/-- **A string array changes only where evaluation changes an item, and other values than texts do
not change at all.** -/
theorem string_arrays_evaluated (r : Resolver σ) (path : ArgPath) (s : σ) :
    (∀ items, ∃ outcome s', r.resolve path (.value (.stringArray items)) s =
        (⟨.value (.stringArray items), outcome⟩, s') ∧
      r.ArrayRun items s (r.calls path (.value (.stringArray items)) s) outcome s') ∧
    (∀ items values s', r.Evaluates items s values s' → values.length = items.length ∧
      ∀ i item, items[i]? = some item → ∃ v mid after,
        r.Evaluates (items.take i) s (values.take i) mid ∧
        (r.evaluateText item).run mid = (.ok v, after) ∧ values[i]? = some v) ∧
    ∀ v : Value, (∀ text, v ≠ .string text) → (∀ items, v ≠ .stringArray items) →
      r.resolve path (.value v) s = (⟨.value v, .ok v⟩, s) ∧ r.calls path (.value v) s = [] := by
  refine ⟨fun items => r.resolve_stringArray path items s, fun items values s' h => ?_,
    fun v noText noArray => ?_⟩
  · exact ⟨h.length_eq, fun i item hi => h.value_at hi⟩
  · cases v with
    | string text => exact absurd rfl (noText text)
    | stringArray items => exact absurd rfl (noArray items)
    | _ => exact ⟨rfl, rfl⟩

/-- A number is not the text that it looks like, so the second array changes; the fault ends the third
one; and the list keeps the same texts as they are. -/
theorem string_arrays_evaluated_of_number :
    let r : Resolver Unit := {
      collaborators := Script.collaborators {
        evaluations := (Table.empty.insert "1" (.ok (.int 1))).insert "$x" (.error (.other "x")) }
      bean := "owner", blueprint := ⟨0, none, .singleton, [], false, none, [], []⟩ }
    let resolved := fun v => (r.resolve (.root "p") (.value v) ()).1.outcome
    let items := ["a", "1", "b"]
    let values : List Value := [.string "a", .int 1, .string "b"]
    let texts : Value := .list [.string "1", .stringArray ["1"]]
    resolved (.stringArray ["a", "b"]) = .ok (.stringArray ["a", "b"]) ∧
      resolved (.stringArray items) = .ok (.array .any values) ∧
      resolved (.stringArray ["a", "$x", "1"]) = .error (.error (.other "x")) ∧
      r.Evaluates items () values () ∧ values.length = items.length ∧
      (∀ text, texts ≠ .string text) ∧ (∀ items, texts ≠ .stringArray items) ∧
      r.resolve (.root "p") (.value texts) () = (⟨.value texts, .ok texts⟩, ()) ∧
      r.calls (.root "p") (.value texts) () = [] := by
  intro r resolved items values texts
  obtain ⟨-, each, untouched⟩ := string_arrays_evaluated r (.root "p") ()
  have evaluated : r.Evaluates items () values () :=
    .cons rfl (.cons rfl (.cons rfl (.nil ())))
  exact ⟨rfl, rfl, rfl, evaluated, (each items values () evaluated).1, nofun, nofun,
    untouched texts nofun nofun⟩

end Wiring.Resolver
