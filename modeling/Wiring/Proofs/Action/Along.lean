import Mathlib.Order.Defs.Unbundled
import Wiring.Action

/-!
# Actions — along a relation

`Along R x` says that the computation `x` leads from every state to one that `R` relates it to,
whether it has a result or stops.  Along a preorder go the computations that leave the state
alone, and with two computations the one after the other: **so what each step of a program keeps,
the program keeps**.
-/

namespace Wiring

variable {σ α β ν : Type} {R : σ → σ → Prop}

/-- The computation leads from every state to a related one. -/
def Along (R : σ → σ → Prop) (x : StateM σ α) : Prop :=
  ∀ s, R s (x s).2

theorem Along.of_run {x : StateM σ α} (h : Along R x) {s s' : σ} {a : α} (hrun : x s = (a, s')) :
    R s s' := by
  have hs := h s
  rwa [hrun] at hs

theorem along_pure [IsPreorder σ R] (a : α) : Along R (pure a : StateM σ α) := fun s => refl_of R s

theorem along_get [IsPreorder σ R] : Along R (get : StateM σ σ) := fun s => refl_of R s

theorem along_modify {f : σ → σ} (h : ∀ s, R s (f s)) : Along R (modify f : StateM σ Unit) := h

theorem along_bind [IsPreorder σ R] {x : StateM σ α} {f : α → StateM σ β} (hx : Along R x)
    (hf : ∀ a, Along R (f a)) : Along R (x >>= f) := fun s =>
  trans_of R (hx s) (hf (x s).1 (x s).2)

namespace Action

theorem along_pure [IsPreorder σ R] (a : α) : Along R (pure a : Action σ α).run :=
  Wiring.along_pure (Except.ok a)

theorem along_throw [IsPreorder σ R] (stop : Stop) : Along R (throw stop : Action σ α).run :=
  Wiring.along_pure (Except.error stop)

theorem along_fail [IsPreorder σ R] (e : Error) : Along R (fail e : Action σ α).run :=
  along_throw (.error e)

theorem along_ofExcept [IsPreorder σ R] (x : Except Error α) :
    Along R (ofExcept x : Action σ α).run := by
  cases x with
  | ok a => exact along_pure a
  | error e => exact along_fail e

/-- A computation that always has a result goes along as an action too. -/
theorem along_lift {x : StateM σ α} (hx : Along R x) : Along R (liftM x : Action σ α).run := hx

/-- What follows an action need only lead along the relation from where the action ended. -/
theorem along_bind_of_run [IsPreorder σ R] {x : Action σ α} {f : α → Action σ β}
    (hx : Along R x.run)
    (hf : ∀ {s a s'}, x.run s = (.ok a, s') → R s' ((f a).run s').2) : Along R (x >>= f).run := by
  intro s
  have hs := hx s
  change R s ((x >>= f).run s).2
  rw [run_bind]
  rcases h : x.run s with ⟨stop | a, s'⟩
  · rwa [h] at hs
  · rw [h] at hs
    exact trans_of R hs (hf h)

theorem along_bind [IsPreorder σ R] {x : Action σ α} {f : α → Action σ β} (hx : Along R x.run)
    (hf : ∀ a, Along R (f a).run) : Along R (x >>= f).run :=
  along_bind_of_run hx fun {_ a s'} _ => hf a s'

/-- What follows an action goes on from where it ended. -/
theorem rest_of_bind [IsPreorder σ R] {x : Action σ α} {f : α → Action σ β} {s mid : σ}
    (hf : ∀ a, Along R (f a).run) (h : R mid (x.run s).2) : R mid ((x >>= f).run s).2 := by
  rw [run_bind]
  rcases hx : x.run s with ⟨stop | a, s'⟩
  · rwa [hx] at h
  · rw [hx] at h
    exact trans_of R h (hf a s')

/-- What follows a computation that always has a result need only go along for the results it can
have. -/
theorem along_bind_lift [IsPreorder σ R] {x : StateM σ α} {f : α → Action σ β} (hx : Along R x)
    (hf : ∀ s, Along R (f (x s).1).run) : Along R (liftM x >>= f : Action σ β).run := fun s =>
  trans_of R (hx s) (hf s (x s).2)

/-- A changed error changes no state. -/
theorem mapError_state (f : Error → Error) (x : Action σ α) (s : σ) :
    ((x.mapError f).run s).2 = (x.run s).2 := by
  rw [run_mapError]
  rcases x.run s with ⟨(_ | _) | _, s'⟩ <;> rfl

theorem along_mapError {f : Error → Error} {x : Action σ α} (hx : Along R x.run) :
    Along R (x.mapError f).run := by
  intro s
  rw [mapError_state]
  exact hx s

theorem along_leaving {node : ν} {x : Action σ α} (hx : Along R x.run) :
    Along R (x.leaving node) := hx

/-- A list goes along when each of its members does. -/
theorem along_mapM [IsPreorder σ R] {f : β → Action σ α} (hf : ∀ b, Along R (f b).run) :
    ∀ bs : List β, Along R (bs.mapM f).run
  | [] => along_pure []
  | b :: bs => by
    rw [List.mapM_cons]
    exact along_bind (hf b) fun a => along_bind (along_mapM hf bs) fun as => along_pure (a :: as)

end Action

end Wiring
