import Wiring.Action

/-!
# Actions — side by side

Two computations, each with a state of its own, from states that a relation `R` relates.
`SideBySide R Q x y s t` says that `x` from `s` and `y` from `t` have results that `Q` relates, and
end in states that `R` relates again.  `Q` may look at the state in which the first one ends.

The results of actions are compared by `Agree E`: both have the same result, or both reached a
bound, or both failed, with errors that `E` relates.  **What follows computations that run side by
side runs side by side with them** (`SideBySide.bind`, `Action.sideBySide_bind`).
-/

namespace Wiring

variable {σ τ α β γ δ ν μ : Type} {R : σ → τ → Prop}

/-- From the states, the results are related by `Q` and the states reached are related by `R`. -/
structure SideBySide (R : σ → τ → Prop) (Q : α → β → σ → Prop) (x : StateM σ α) (y : StateM τ β)
    (s : σ) (t : τ) : Prop where
  result : Q (x s).1 (y t).1 (x s).2
  state : R (x s).2 (y t).2

/-- From related states, the computations have the same result and end in related states. -/
def Mirrors (R : σ → τ → Prop) (x : StateM σ α) (y : StateM τ α) : Prop :=
  ∀ s t, R s t → SideBySide R (fun a b _ => a = b) x y s t

/-- The same result, or a reached bound, or errors that `E` relates in the state reached. -/
inductive Agree (E : Error → Error → σ → Prop) : Except Stop α → Except Stop α → σ → Prop where
  | ok (a : α) (s : σ) : Agree E (.ok a) (.ok a) s
  | exhausted (s : σ) : Agree E (.error .exhausted) (.error .exhausted) s
  | error {e f : Error} {s : σ} (h : E e f s) : Agree E (.error (.error e)) (.error (.error f)) s

/-- The same node, and outcomes that agree. -/
structure Agrees (E : Error → Error → σ → Prop) (a b : Resolved ν α) (s : σ) : Prop where
  node : a.node = b.node
  outcome : Agree E a.outcome b.outcome s

namespace Agree

variable {E : Error → Error → σ → Prop} {s : σ}

/-- An outcome agrees with itself if its error is related to itself. -/
theorem rfl_of (x : Except Stop α) (h : ∀ e, x = .error (.error e) → E e e s) : Agree E x x s := by
  match x, h with
  | .ok a, _ => exact .ok a s
  | .error .exhausted, _ => exact .exhausted s
  | .error (.error e), h => exact .error (h e rfl)

theorem map (f : α → β) {x y : Except Stop α} (h : Agree E x y s) :
    Agree E (x.map f) (y.map f) s := by
  cases h with
  | ok a => exact .ok (f a) s
  | exhausted => exact .exhausted s
  | error h => exact .error h

theorem imp {E' : Error → Error → σ → Prop} {x y : Except Stop α} (h : Agree E x y s)
    (hE : ∀ {e f}, E e f s → E' e f s) : Agree E' x y s := by
  cases h with
  | ok a => exact .ok a s
  | exhausted => exact .exhausted s
  | error h => exact .error (hE h)

theorem eq {x y : Except Stop α} (h : Agree (fun e f _ => e = f) x y s) : x = y := by
  cases h with
  | ok | exhausted => rfl
  | error h => rw [h]

end Agree

theorem Agrees.eq {a b : Resolved ν α} {s : σ} (h : Agrees (fun e f _ => e = f) a b s) : a = b := by
  obtain ⟨node, outcome⟩ := a
  obtain ⟨node', outcome'⟩ := b
  rw [show node = node' from h.node, show outcome = outcome' from h.outcome.eq]

namespace SideBySide

variable {Q : α → β → σ → Prop} {Q' : γ → δ → σ → Prop} {s : σ} {t : τ}

theorem pure {a : α} {b : β} (hR : R s t) (hQ : Q a b s) :
    SideBySide R Q (Pure.pure a : StateM σ α) (Pure.pure b : StateM τ β) s t := ⟨hQ, hR⟩

/-- What the computations run to is compared. -/
theorem of_runs {x : StateM σ α} {y : StateM τ β} {p : α × σ} {q : β × τ} (hx : x s = p)
    (hy : y t = q) (result : Q p.1 q.1 p.2) (state : R p.2 q.2) : SideBySide R Q x y s t := by
  subst hx hy
  exact ⟨result, state⟩

theorem imp {Q' : α → β → σ → Prop} {x : StateM σ α} {y : StateM τ β}
    (h : SideBySide R Q x y s t) (hQ : ∀ {a b s}, Q a b s → Q' a b s) : SideBySide R Q' x y s t :=
  ⟨hQ h.result, h.state⟩

/-- What follows starts from the states that were reached, with the results there are. -/
theorem bind {x : StateM σ α} {y : StateM τ β} {f : α → StateM σ γ} {g : β → StateM τ δ}
    (h : SideBySide R Q x y s t)
    (hfg : ∀ {a b s t}, R s t → Q a b s → SideBySide R Q' (f a) (g b) s t) :
    SideBySide R Q' (x >>= f) (y >>= g) s t :=
  have next := hfg h.state h.result
  ⟨next.result, next.state⟩

/-- What follows computations with the same result. -/
theorem bind_same {x : StateM σ α} {y : StateM τ α} {f : α → StateM σ γ} {g : α → StateM τ δ}
    (h : SideBySide R (fun a b _ => a = b) x y s t)
    (hfg : ∀ a {s t}, R s t → SideBySide R Q' (f a) (g a) s t) :
    SideBySide R Q' (x >>= f) (y >>= g) s t :=
  h.bind fun {a b s t} hR hab => by
    obtain rfl : a = b := hab
    exact hfg a hR

variable {E : Error → Error → σ → Prop}

/-- What follows goes on from a result, and hands on why there is none. -/
theorem bind_resolved {x : StateM σ (Resolved ν α)} {y : StateM τ (Resolved ν α)}
    {f : Resolved ν α → StateM σ (Resolved μ β)} {g : Resolved ν α → StateM τ (Resolved μ β)}
    (h : SideBySide R (Agrees E) x y s t) (left : ν → μ)
    (stops : ∀ node stop, f ⟨node, .error stop⟩ = Pure.pure ⟨left node, .error stop⟩)
    (stops' : ∀ node stop, g ⟨node, .error stop⟩ = Pure.pure ⟨left node, .error stop⟩)
    (hfg : ∀ node a {s t}, R s t →
      SideBySide R (Agrees E) (f ⟨node, .ok a⟩) (g ⟨node, .ok a⟩) s t) :
    SideBySide R (Agrees E) (x >>= f) (y >>= g) s t := by
  refine h.bind fun {a b s t} hR hab => ?_
  obtain ⟨node, outcome⟩ := a
  obtain ⟨node', outcome'⟩ := b
  obtain ⟨rfl, agree⟩ := hab
  cases agree with
  | ok a => exact hfg node a hR
  | exhausted => rw [stops, stops']; exact .pure hR ⟨rfl, .exhausted s⟩
  | error he => rw [stops, stops']; exact .pure hR ⟨rfl, .error he⟩

/-- An action's result is gone on from, and why it has none is handed on. -/
theorem bind_run {x : Action σ α} {y : Action τ α} {f : Except Stop α → StateM σ (Resolved μ β)}
    {g : Except Stop α → StateM τ (Resolved μ β)} (h : SideBySide R (Agree E) x.run y.run s t)
    (left : μ) (stops : ∀ stop, f (.error stop) = Pure.pure ⟨left, .error stop⟩)
    (stops' : ∀ stop, g (.error stop) = Pure.pure ⟨left, .error stop⟩)
    (hfg : ∀ a {s t}, R s t → SideBySide R (Agrees E) (f (.ok a)) (g (.ok a)) s t) :
    SideBySide R (Agrees E) (x.run >>= f) (y.run >>= g) s t := by
  refine h.bind fun {a b s t} hR hab => ?_
  cases hab with
  | ok a => exact hfg a hR
  | exhausted => rw [stops, stops']; exact .pure hR ⟨rfl, .exhausted s⟩
  | error he => rw [stops, stops']; exact .pure hR ⟨rfl, .error he⟩

/-- A result is made into another one, and the node into another one. -/
theorem map {x : StateM σ (Resolved ν α)} {y : StateM τ (Resolved ν α)}
    (h : SideBySide R (Agrees E) x y s t) (left : ν → μ) (k : α → β) :
    SideBySide R (Agrees E) (x >>= fun a => Pure.pure ⟨left a.node, a.outcome.map k⟩)
      (y >>= fun a => Pure.pure ⟨left a.node, a.outcome.map k⟩) s t :=
  h.bind fun hR hab => .pure hR ⟨congrArg left hab.node, hab.outcome.map k⟩

end SideBySide

theorem Mirrors.pure (a : α) : Mirrors R (Pure.pure a : StateM σ α) (Pure.pure a : StateM τ α) :=
  fun _ _ hR => .pure hR rfl

theorem Mirrors.bind {x : StateM σ α} {y : StateM τ α} {f : α → StateM σ γ} {g : α → StateM τ γ}
    (h : Mirrors R x y) (hfg : ∀ a, Mirrors R (f a) (g a)) : Mirrors R (x >>= f) (y >>= g) :=
  fun _ _ hR => (h _ _ hR).bind_same fun a _ _ hR => hfg a _ _ hR

/-! ### Actions -/

namespace Action

variable {E : Error → Error → σ → Prop} {s : σ} {t : τ}

theorem sideBySide_pure (a : α) (hR : R s t) :
    SideBySide R (Agree E) (pure a : Action σ α).run (pure a : Action τ α).run s t :=
  ⟨.ok a s, hR⟩

theorem sideBySide_fail {e f : Error} (hR : R s t) (h : E e f s) :
    SideBySide R (Agree E) (fail e : Action σ α).run (fail f : Action τ α).run s t :=
  ⟨.error h, hR⟩

/-- The second action is begun with the same result, or not at all. -/
theorem sideBySide_bind {x : Action σ α} {y : Action τ α} {f : α → Action σ β}
    {g : α → Action τ β} (h : SideBySide R (Agree E) x.run y.run s t)
    (hfg : ∀ a {s t}, R s t → SideBySide R (Agree E) (f a).run (g a).run s t) :
    SideBySide R (Agree E) (x >>= f).run (y >>= g).run s t := by
  refine SideBySide.bind (f := ExceptT.bindCont f) (g := ExceptT.bindCont g) h
    fun {a b s t} hR hab => ?_
  cases hab with
  | ok a => exact hfg a hR
  | exhausted => exact ⟨.exhausted s, hR⟩
  | error h => exact ⟨.error h, hR⟩

/-- What follows computations that always have a result. -/
theorem sideBySide_bind_lift {Q : α → γ → σ → Prop} {x : StateM σ α} {y : StateM τ γ}
    {f : α → Action σ β} {g : γ → Action τ β} (h : SideBySide R Q x y s t)
    (hfg : ∀ {a b s t}, R s t → Q a b s → SideBySide R (Agree E) (f a).run (g b).run s t) :
    SideBySide R (Agree E) (liftM x >>= f : Action σ β).run (liftM y >>= g : Action τ β).run s t :=
  h.bind (f := fun a => (f a).run) (g := fun b => (g b).run) hfg

/-- Actions with the same result and the same error agree, if the error is related to itself. -/
theorem sideBySide_of_same {x : Action σ α} {y : Action τ α}
    (h : SideBySide R (fun a b _ => a = b) x.run y.run s t)
    (hE : ∀ e, (x.run s).1 = .error (.error e) → E e e (x.run s).2) :
    SideBySide R (Agree E) x.run y.run s t := by
  refine ⟨?_, h.state⟩
  rw [show (y.run t).1 = (x.run s).1 from h.result.symm]
  exact .rfl_of _ hE

/-- Of changed errors only the changes are compared. -/
theorem sideBySide_mapError {x : Action σ α} {y : Action τ α} {f g : Error → Error}
    (h : SideBySide R (fun a b _ => a = b) x.run y.run s t) (hE : ∀ e s, E (f e) (g e) s) :
    SideBySide R (Agree E) (x.mapError f).run (y.mapError g).run s t := by
  refine SideBySide.bind (Q := fun a b _ => a = b) h fun {a b s t} hR hab => ?_
  obtain rfl : a = b := hab
  match a with
  | .ok a => exact ⟨.ok a s, hR⟩
  | .error .exhausted => exact ⟨.exhausted s, hR⟩
  | .error (.error e) => exact ⟨.error (hE e s), hR⟩

theorem sideBySide_leaving {x : Action σ α} {y : Action τ α} (node : ν)
    (h : SideBySide R (Agree E) x.run y.run s t) :
    SideBySide R (Agrees E) (x.leaving node) (y.leaving node) s t :=
  ⟨⟨rfl, h.result⟩, h.state⟩

/-! ### Actions with the same result and the same error -/

theorem mirrors_pure (a : α) :
    Mirrors R (pure a : Action σ α).run (pure a : Action τ α).run := Mirrors.pure (Except.ok a)

theorem mirrors_throw (stop : Stop) :
    Mirrors R (throw stop : Action σ α).run (throw stop : Action τ α).run :=
  Mirrors.pure (Except.error stop)

theorem mirrors_bind {x : Action σ α} {y : Action τ α} {f : α → Action σ β} {g : α → Action τ β}
    (h : Mirrors R x.run y.run) (hfg : ∀ a, Mirrors R (f a).run (g a).run) :
    Mirrors R (x >>= f).run (y >>= g).run :=
  Mirrors.bind (f := ExceptT.bindCont f) (g := ExceptT.bindCont g) h fun outcome => by
    cases outcome with
    | ok a => exact hfg a
    | error stop => exact Mirrors.pure (Except.error stop)

theorem mirrors_lift {x : StateM σ α} {y : StateM τ α} (h : Mirrors R x y) :
    Mirrors R (liftM x : Action σ α).run (liftM y : Action τ α).run :=
  Mirrors.bind h fun a => Mirrors.pure (Except.ok a)

theorem mirrors_ofExcept (x : Except Error α) :
    Mirrors R (ofExcept x : Action σ α).run (ofExcept x : Action τ α).run := by
  cases x with
  | ok a => exact mirrors_pure a
  | error e => exact mirrors_throw (.error e)

/-- What follows reads related states. -/
theorem mirrors_get_bind {f : σ → Action σ α} {g : τ → Action τ α}
    (h : ∀ s t, R s t → SideBySide R (fun a b _ => a = b) (f s).run (g t).run s t) :
    Mirrors R (get >>= f : Action σ α).run (get >>= g : Action τ α).run :=
  fun s t hR => ⟨(h s t hR).result, (h s t hR).state⟩

/-- What related states have in common is read. -/
theorem mirrors_read {f : σ → α} {g : τ → α} (h : ∀ {s t}, R s t → f s = g t) :
    Mirrors R (do return f (← get) : Action σ α).run (do return g (← get) : Action τ α).run :=
  fun _ _ hR => ⟨congrArg Except.ok (h hR), hR⟩

theorem sideBySide_mapM {f : β → Action σ α} {g : β → Action τ α}
    (h : ∀ b {s t}, R s t → SideBySide R (Agree E) (f b).run (g b).run s t) :
    ∀ (bs : List β) {s t}, R s t → SideBySide R (Agree E) (bs.mapM f).run (bs.mapM g).run s t
  | [], _, _, hR => sideBySide_pure [] hR
  | b :: bs, _, _, hR => by
    rw [List.mapM_cons, List.mapM_cons]
    refine sideBySide_bind (h b hR) fun a _ _ hR => ?_
    exact sideBySide_bind (sideBySide_mapM h bs hR) fun as _ _ hR => sideBySide_pure (a :: as) hR

end Action

end Wiring
