import Wiring.Error

/-!
# Actions

A step of work on a state `σ` that may fail.  The state is kept on failure, so what was done before
is still done.  An action stops with an error of the domain, or because a bound was reached
(`Stop`): the second is no error anyone may handle.
-/

namespace Wiring

/-- Why an action has no result. -/
inductive Stop where
  | error (e : Error)
  /-- A bound on nested work was reached before there was a result. -/
  | exhausted

/-- A step of work on a state that may fail. -/
abbrev Action (σ : Type) := ExceptT Stop (StateM σ)

/-- An outcome together with the node it belongs to, as the work left it. -/
structure Resolved (ν α : Type) where
  node : ν
  outcome : Except Stop α

theorem ok_of_toOption {α : Type} {outcome : Except Stop α} {a : α}
    (h : outcome.toOption = some a) : outcome = .ok a := by
  cases outcome with
  | ok a => cases h; rfl
  | error stop => cases h

theorem exists_ok {σ α : Type} (run : Except Stop α × σ) (h : run.1.toOption.isSome) :
    ∃ a, run = (.ok a, run.2) := by
  obtain ⟨a, ha⟩ := Option.isSome_iff_exists.1 h
  exact ⟨a, Prod.ext (ok_of_toOption ha) rfl⟩

theorem exists_resolved {σ ν α : Type} (run : Resolved ν α × σ)
    (h : run.1.outcome.toOption.isSome) : ∃ node a, run = (⟨node, .ok a⟩, run.2) := by
  obtain ⟨a, ha⟩ := Option.isSome_iff_exists.1 h
  exact ⟨run.1.node, a, Prod.ext (congrArg (Resolved.mk run.1.node) (ok_of_toOption ha)) rfl⟩

/-! ### Computations that always have a result, from a state -/

theorem state_bind {σ α β : Type} (x : StateM σ α) (f : α → StateM σ β) (s : σ) :
    (x >>= f) s = f (x s).1 (x s).2 := rfl

theorem modify_bind {σ β : Type} (f : σ → σ) (g : PUnit → StateM σ β) (s : σ) :
    (modify f >>= g) s = g ⟨⟩ (f s) := rfl

namespace Action

variable {σ α : Type}

/-- Stops with an error. -/
def fail (e : Error) : Action σ α :=
  throw (.error e)

/-- The action with its error changed; a reached bound stays one. -/
def mapError (f : Error → Error) (x : Action σ α) : Action σ α :=
  ExceptT.mk do
    match ← x.run with
    | .error (.error e) => pure (.error (.error (f e)))
    | outcome => pure outcome

/-- The result of a computation without a state. -/
def ofExcept (x : Except Error α) : Action σ α :=
  match x with
  | .ok a => pure a
  | .error e => fail e

/-- The outcome of an action that leaves `node` as it is. -/
def leaving {ν : Type} (node : ν) (x : Action σ α) : StateM σ (Resolved ν α) := do
  return ⟨node, ← x.run⟩

/-! ### Runs from a state -/

/-- What one action leads to when another follows: the second starts where the first ended, and
is not begun when the first stopped. -/
theorem run_bind {β : Type} (x : Action σ α) (f : α → Action σ β) (s : σ) :
    (x >>= f).run s =
      match x.run s with
      | (.ok a, s') => (f a).run s'
      | (.error stop, s') => (.error stop, s') := by
  change ExceptT.bindCont f (x.run s).1 (x.run s).2 = _
  rcases x.run s with ⟨_ | _, _⟩ <;> rfl

/-- What follows reads the state it starts from. -/
theorem run_get_bind {β : Type} (f : σ → Action σ β) (s : σ) :
    (get >>= f : Action σ β).run s = (f s).run s := rfl

/-- A changed error is all that `mapError` changes: the result and the state stay. -/
theorem run_mapError (f : Error → Error) (x : Action σ α) (s : σ) :
    (x.mapError f).run s =
      match x.run s with
      | (.error (.error e), s') => (.error (.error (f e)), s')
      | (outcome, s') => (outcome, s') := by
  change (match (x.run s).1 with
    | .error (.error e) => pure (.error (.error (f e)))
    | outcome => pure outcome : StateM σ (Except Stop α)) (x.run s).2 = _
  rcases x.run s with ⟨(_ | _) | _, _⟩ <;> rfl

/-- An action with a result has one in each of its parts. -/
theorem ok_of_bind {β : Type} {x : Action σ α} {f : α → Action σ β} {s s' : σ} {b : β}
    (h : (x >>= f).run s = (.ok b, s')) :
    ∃ a mid, x.run s = (.ok a, mid) ∧ (f a).run mid = (.ok b, s') := by
  rw [run_bind] at h
  rcases hx : x.run s with ⟨stop | a, mid⟩
  · rw [hx] at h
    cases h
  · rw [hx] at h
    exact ⟨a, mid, rfl, h⟩

theorem ok_of_mapError {f : Error → Error} {x : Action σ α} {s s' : σ} {a : α}
    (h : (x.mapError f).run s = (.ok a, s')) : x.run s = (.ok a, s') := by
  rw [run_mapError] at h
  rcases hx : x.run s with ⟨(_ | _) | a, mid⟩
  · rw [hx] at h
    cases h
  · rw [hx] at h
    cases h
  · rw [hx] at h
    exact h

theorem ok_of_ofExcept {x : Except Error α} {s s' : σ} {a : α}
    (h : (ofExcept x : Action σ α).run s = (.ok a, s')) : x = .ok a ∧ s' = s := by
  cases x with
  | ok a => cases h; exact ⟨rfl, rfl⟩
  | error e => cases h

theorem leaving_run {ν : Type} (node : ν) (x : Action σ α) (s : σ) :
    x.leaving node s = (⟨node, (x.run s).1⟩, (x.run s).2) := rfl

theorem ok_of_leaving {ν : Type} {node node' : ν} {x : Action σ α} {s s' : σ} {a : α}
    (h : x.leaving node s = (⟨node', .ok a⟩, s')) : x.run s = (.ok a, s') := by
  rcases hx : x.run s with ⟨outcome, mid⟩
  rw [leaving_run, hx] at h
  cases h
  rfl

end Action

end Wiring
