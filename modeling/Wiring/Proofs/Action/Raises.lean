import Wiring.Action

/-!
# Actions — the errors raised

`Within P outcome s` says that `P` holds of the error an outcome stops with, and of the state `s` it
stops in; an outcome with a result, or one that reached a bound, is within every `P`.  An action
raises within `P` when all its outcomes are (`Action.Raises`), a computation that ends with a node
when its node's are (`Raises`).  **What each step of a program raises, the program raises**, and an
error that `mapError` changes counts as changed only.
-/

namespace Wiring

variable {σ α β ν μ : Type} {P : Error → σ → Prop}

/-- The error an outcome stops with. -/
def Stop.error? : Except Stop α → Option Error
  | .error (.error e) => some e
  | _ => none

theorem Stop.eq_of_error? {outcome : Except Stop α} {e : Error} (h : error? outcome = some e) :
    outcome = .error (.error e) := by
  match outcome, h with
  | .error (.error _), h => cases h; rfl

/-- `P` holds of the error the outcome stops with in the state, if it is one. -/
def Within (P : Error → σ → Prop) : Except Stop α → σ → Prop
  | .error (.error e), s => P e s
  | _, _ => True

/-- What the computation raises, and the state it raises it in, is within `P`. -/
def Raises (P : Error → σ → Prop) (x : StateM σ (Resolved ν α)) : Prop :=
  ∀ s, Within P (x s).1.outcome (x s).2

/-- What the action raises, and the state it raises it in, is within `P`. -/
def Action.Raises (P : Error → σ → Prop) (x : Action σ α) : Prop :=
  ∀ s, Within P (x.run s).1 (x.run s).2

/-- An error is within `P` whatever the result would have been. -/
theorem within_error {stop : Stop} {s : σ} (h : Within P (.error stop : Except Stop α) s) :
    Within P (.error stop : Except Stop β) s := by
  cases stop with
  | error e => exact h
  | exhausted => exact trivial

theorem within_map (f : α → β) {outcome : Except Stop α} {s : σ} (h : Within P outcome s) :
    Within P (outcome.map f) s := by
  cases outcome with
  | ok a => exact trivial
  | error stop => exact within_error h

namespace Action

theorem raises_pure (a : α) : (pure a : Action σ α).Raises P := fun _ => trivial

theorem raises_exhausted : (throw .exhausted : Action σ α).Raises P := fun _ => trivial

theorem raises_fail {e : Error} (h : ∀ s, P e s) : (fail e : Action σ α).Raises P := h

theorem raises_ofExcept {x : Except Error α} (h : ∀ e, x = .error e → ∀ s, P e s) :
    (ofExcept x : Action σ α).Raises P := by
  cases x with
  | ok a => exact raises_pure a
  | error e => exact raises_fail (h e rfl)

/-- A computation that always has a result raises nothing. -/
theorem raises_lift (x : StateM σ α) : (liftM x : Action σ α).Raises P := fun _ => trivial

theorem raises_bind {x : Action σ α} {f : α → Action σ β} (hx : x.Raises P)
    (hf : ∀ a, (f a).Raises P) : (x >>= f).Raises P := by
  intro s
  have hs := hx s
  rw [run_bind]
  rcases hrun : x.run s with ⟨stop | a, s'⟩
  · rw [hrun] at hs
    exact within_error hs
  · exact hf a s'

/-- What follows a computation that always has a result need only be within `P` for the results it
can have. -/
theorem raises_bind_lift {x : StateM σ α} {f : α → Action σ β} (hf : ∀ s, (f (x s).1).Raises P) :
    (liftM x >>= f : Action σ β).Raises P := fun s => hf s (x s).2

/-- Of a changed error only the change counts. -/
theorem raises_mapError {f : Error → Error} (x : Action σ α) (h : ∀ e s, P (f e) s) :
    (x.mapError f).Raises P := by
  intro s
  rw [run_mapError]
  match x.run s with
  | (.ok a, s') => exact trivial
  | (.error .exhausted, s') => exact trivial
  | (.error (.error e), s') => exact h e s'

theorem raises_mapM {f : β → Action σ α} (hf : ∀ b, (f b).Raises P) :
    ∀ bs : List β, (bs.mapM f).Raises P
  | [] => raises_pure []
  | b :: bs => by
    rw [List.mapM_cons]
    refine raises_bind (hf b) fun a => ?_
    exact raises_bind (raises_mapM hf bs) fun as => raises_pure (a :: as)

theorem raises_leaving {node : ν} {x : Action σ α} (hx : x.Raises P) :
    Wiring.Raises P (x.leaving node) := hx

end Action

theorem raises_return {node : ν} (a : α) :
    Raises P (pure ⟨node, .ok a⟩ : StateM σ (Resolved ν α)) := fun _ => trivial

/-- What follows a computation may raise again what it raised. -/
theorem raises_bind {x : StateM σ (Resolved ν α)} {f : Resolved ν α → StateM σ (Resolved μ β)}
    (hx : Raises P x)
    (hf : ∀ a s, Within P a.outcome s → Within P (f a s).1.outcome (f a s).2) :
    Raises P (x >>= f) := fun s => hf _ _ (hx s)

theorem raises_bind_run {x : Action σ α} {f : Except Stop α → StateM σ (Resolved μ β)}
    (hx : x.Raises P) (hf : ∀ a s, Within P a s → Within P (f a s).1.outcome (f a s).2) :
    Raises P (x.run >>= f) := fun s => hf _ _ (hx s)

end Wiring
