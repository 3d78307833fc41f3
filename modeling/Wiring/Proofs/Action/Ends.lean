import Wiring.Action

/-!
# Actions — coming to the same end

Two computations from one state, of which `I` holds.  `EndsAlike I done x y` says that both come to
the same result and the same state, that `done` holds of the result, and that `I` holds of the state
again.  The result of an action is `Ended` when no bound was reached: a program that comes to the
same end under any two bounds that are large enough does not depend on its bound.

**What follows computations that come to the same end comes to the same end** (`EndsAlike.bind`,
`Action.endsAlike_bind`); it may count on a result that is reached where `I` holds.
-/

namespace Wiring

variable {σ α β ν μ : Type} {I : σ → Prop} {done : α → Prop} {done' : β → Prop}

/-- From the state, both computations come to the same end. -/
structure EndsFrom (I : σ → Prop) (done : α → Prop) (x y : StateM σ α) (s : σ) : Prop where
  same : y s = x s
  done : done (x s).1
  kept : I (x s).2

/-- From every state of which `I` holds, both computations come to the same end. -/
def EndsAlike (I : σ → Prop) (done : α → Prop) (x y : StateM σ α) : Prop :=
  ∀ s, I s → EndsFrom I done x y s

/-- The outcome is not that a bound was reached. -/
def Ended (outcome : Except Stop α) : Prop :=
  outcome ≠ .error .exhausted

/-- The outcome is not that a bound was reached, whatever the node. -/
def Resolved.Ended (resolved : Resolved ν α) : Prop :=
  Wiring.Ended resolved.outcome

theorem ended_ok (a : α) : Ended (.ok a) := nofun

theorem ended_error (e : Error) : Ended (.error (.error e) : Except Stop α) := nofun

theorem Ended.map {outcome : Except Stop α} (h : Ended outcome) (k : α → β) :
    Ended (outcome.map k) := by
  match outcome, h with
  | .ok a, _ => exact ended_ok (k a)
  | .error (.error e), _ => exact ended_error e
  | .error .exhausted, h => exact absurd rfl h

/-- Why there is no result is the same for results of any type. -/
theorem Ended.stop {stop : Stop} (h : Ended (.error stop : Except Stop α)) :
    Ended (.error stop : Except Stop β) := by
  rintro ⟨⟩
  exact h rfl

namespace EndsAlike

variable {x y : StateM σ α} {f g : α → StateM σ β}

theorem pure {a : α} (h : done a) :
    EndsAlike I done (Pure.pure a : StateM σ α) (Pure.pure a) := fun _ hs => ⟨rfl, h, hs⟩

/-- Where a computation comes to an end, it comes to the same end as itself. -/
theorem of_self (h : ∀ s, I s → done (x s).1 ∧ I (x s).2) : EndsAlike I done x x := fun s hs =>
  have ⟨hdone, hkept⟩ := h s hs
  ⟨rfl, hdone, hkept⟩

/-- What follows starts from the state that is reached, with the result there is. -/
theorem bind (hx : EndsAlike I done x y)
    (hf : ∀ s, I s → done (x s).1 → EndsAlike I done' (f (x s).1) (g (x s).1)) :
    EndsAlike I done' (x >>= f) (y >>= g) := by
  intro s hs
  have first := hx s hs
  have next := hf s hs first.done (x s).2 first.kept
  refine ⟨?_, next.done, next.kept⟩
  rw [state_bind, first.same]
  exact next.same

/-- What follows goes on from a result, and hands on why there is none. -/
theorem bind_resolved {x y : StateM σ (Resolved ν α)}
    {f g : Resolved ν α → StateM σ (Resolved μ β)} (hx : EndsAlike I Resolved.Ended x y)
    (left : ν → μ) (stops : ∀ node stop, f ⟨node, .error stop⟩ = Pure.pure ⟨left node, .error stop⟩)
    (stops' : ∀ node stop, g ⟨node, .error stop⟩ = Pure.pure ⟨left node, .error stop⟩)
    (hf : ∀ node a, EndsAlike I Resolved.Ended (f ⟨node, .ok a⟩) (g ⟨node, .ok a⟩)) :
    EndsAlike I Resolved.Ended (x >>= f) (y >>= g) := by
  refine hx.bind fun s _ ended => ?_
  rcases hx : (x s).1 with ⟨node, stop | a⟩
  · rw [hx] at ended
    rw [stops, stops']
    exact pure (Ended.stop ended)
  · exact hf node a

/-- An action's result is gone on from, and why it has none is handed on. -/
theorem bind_run {x y : Action σ α} {f g : Except Stop α → StateM σ (Resolved μ β)}
    (hx : EndsAlike I Ended x.run y.run) (left : μ)
    (stops : ∀ stop, f (.error stop) = Pure.pure ⟨left, .error stop⟩)
    (stops' : ∀ stop, g (.error stop) = Pure.pure ⟨left, .error stop⟩)
    (hf : ∀ a, EndsAlike I Resolved.Ended (f (.ok a)) (g (.ok a))) :
    EndsAlike I Resolved.Ended (x.run >>= f) (y.run >>= g) := by
  refine hx.bind fun s _ ended => ?_
  rcases hx : (x.run s).1 with stop | a
  · rw [hx] at ended
    rw [stops, stops']
    exact pure (Ended.stop ended)
  · exact hf a

/-- A result is made into another one, and the node into another one. -/
theorem map {x y : StateM σ (Resolved ν α)} (hx : EndsAlike I Resolved.Ended x y) (left : ν → μ)
    (k : α → β) :
    EndsAlike I Resolved.Ended (x >>= fun a => Pure.pure ⟨left a.node, a.outcome.map k⟩)
      (y >>= fun a => Pure.pure ⟨left a.node, a.outcome.map k⟩) :=
  hx.bind fun _ _ ended => pure (Ended.map ended k)

end EndsAlike

/-! ### Actions -/

namespace Action

variable {x y : Action σ α} {f g : α → Action σ β}

theorem endsAlike_pure (a : α) :
    EndsAlike I Ended (pure a : Action σ α).run (pure a : Action σ α).run :=
  EndsAlike.pure (ended_ok a)

theorem endsAlike_fail (e : Error) :
    EndsAlike I Ended (fail e : Action σ α).run (fail e : Action σ α).run :=
  EndsAlike.pure (ended_error e)

theorem endsAlike_ofExcept (x : Except Error α) :
    EndsAlike I Ended (ofExcept x : Action σ α).run (ofExcept x : Action σ α).run := by
  cases x with
  | ok a => exact endsAlike_pure a
  | error e => exact endsAlike_fail e

/-- The second action is begun with a result that was reached, or not at all. -/
theorem endsAlike_bind (hx : EndsAlike I Ended x.run y.run)
    (hf : ∀ s a, I s → (x.run s).1 = .ok a → EndsAlike I Ended (f a).run (g a).run) :
    EndsAlike I Ended (x >>= f).run (y >>= g).run := by
  refine EndsAlike.bind (x := x.run) (y := y.run) (f := ExceptT.bindCont f)
    (g := ExceptT.bindCont g) hx fun s hs ended => ?_
  rcases hrun : (x.run s).1 with stop | a
  · rw [hrun] at ended
    exact EndsAlike.pure ended.stop
  · exact hf s a hs hrun

/-- What follows a computation that always has a result. -/
theorem endsAlike_bind_lift {x y : StateM σ α} (hx : EndsAlike I done x y)
    (hf : ∀ s, I s → EndsAlike I Ended (f (x s).1).run (g (x s).1).run) :
    EndsAlike I Ended (liftM x >>= f : Action σ β).run (liftM y >>= g : Action σ β).run :=
  hx.bind (f := fun a => (f a).run) (g := fun a => (g a).run) fun s hs _ => hf s hs

/-- What follows reads the state it starts from. -/
theorem endsAlike_get_bind {f g : σ → Action σ α}
    (h : ∀ s, I s → EndsFrom I Ended (f s).run (g s).run s) :
    EndsAlike I Ended (get >>= f : Action σ α).run (get >>= g : Action σ α).run := fun s hs =>
  ⟨(h s hs).same, (h s hs).done, (h s hs).kept⟩

theorem endsAlike_mapError (change : Error → Error) (hx : EndsAlike I Ended x.run y.run) :
    EndsAlike I Ended (x.mapError change).run (y.mapError change).run := by
  refine EndsAlike.bind hx fun s _ ended => ?_
  match (x.run s).1, ended with
  | .ok a, _ => exact EndsAlike.pure (ended_ok a)
  | .error (.error e), _ => exact EndsAlike.pure (ended_error (change e))
  | .error .exhausted, ended => exact absurd rfl ended

theorem endsAlike_leaving (node : ν) (hx : EndsAlike I Ended x.run y.run) :
    EndsAlike I Resolved.Ended (x.leaving node) (y.leaving node) :=
  EndsAlike.bind hx fun _ _ ended => EndsAlike.pure ended

theorem endsAlike_mapM {f g : β → Action σ α} (h : ∀ b, EndsAlike I Ended (f b).run (g b).run) :
    ∀ bs : List β, EndsAlike I Ended (bs.mapM f).run (bs.mapM g).run
  | [] => endsAlike_pure []
  | b :: bs => by
    rw [List.mapM_cons, List.mapM_cons]
    refine endsAlike_bind (h b) fun _ a _ _ => ?_
    exact endsAlike_bind (endsAlike_mapM h bs) fun _ as _ _ => endsAlike_pure (a :: as)

end Action

end Wiring
