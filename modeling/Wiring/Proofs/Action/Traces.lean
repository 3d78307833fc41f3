import Wiring.Proofs.Resolver.Values
import Wiring.Trace

/-!
# Actions — the edges recorded and the types loaded on the way

`Records x y made` says that `y` does on a traced state what `x` does, and that the calls it keeps
leave the marks `made`, told by the state it starts from: the edges that are to be recorded and the
types that are to be loaded (`Mark`).  **One after the other, computations leave the marks of the
first and then those of the second** from where the first ended (`Records.bind`), and a second action
leaves none when the first one has stopped (`Records.act_bind`).
-/

namespace Wiring

variable {σ α β : Type}

/-- An edge that a container is asked to record. -/
inductive Edge where
  /-- The second bean needs the first. -/
  | needed (dependency dependent : String)
  /-- The first bean is part of the second. -/
  | contained (inner owner : String)
  deriving DecidableEq

/-- What a call leaves behind. -/
inductive Mark where
  | edge (e : Edge)
  /-- The type of the name is to be loaded. -/
  | load (name : String)

/-- The mark that a call leaves, if it leaves one. -/
def Call.mark? : Call → Option Mark
  | registerDependent dependency dependent => some (.edge (.needed dependency dependent))
  | registerContained inner owner => some (.edge (.contained inner owner))
  | loadType name => some (.load name)
  | _ => none

/-- The edge that a call has recorded. -/
def Call.edge? : Call → Option Edge
  | registerDependent dependency dependent => some (.needed dependency dependent)
  | registerContained inner owner => some (.contained inner owner)
  | _ => none

/-- The name of the type that a call is to load. -/
def Call.load? : Call → Option String
  | loadType name => some name
  | _ => none

namespace Mark

def edge? : Mark → Option Edge
  | edge e => some e
  | load _ => none

def load? : Mark → Option String
  | edge _ => none
  | load name => some name

variable (calls : List Call)

/-- The edges that calls record are among their marks. -/
theorem filterMap_edge? : (calls.filterMap Call.mark?).filterMap edge? =
    calls.filterMap Call.edge? := by
  rw [List.filterMap_filterMap]
  refine congrArg (calls.filterMap ·) (funext fun call => ?_)
  cases call <;> rfl

/-- The types that calls are to load are among their marks. -/
theorem filterMap_load? : (calls.filterMap Call.mark?).filterMap load? =
    calls.filterMap Call.load? := by
  rw [List.filterMap_filterMap]
  refine congrArg (calls.filterMap ·) (funext fun call => ?_)
  cases call <;> rfl

end Mark

/-- The computation `y` does what `x` does and keeps calls that leave the marks `made`. -/
def Records (x : StateM σ α) (y : StateM (Traced σ) α) (made : σ → List Mark) : Prop :=
  ∀ s calls, ∃ more, y ⟨s, calls⟩ = ((x s).1, ⟨(x s).2, calls ++ more⟩) ∧
    more.filterMap Call.mark? = made s

/-- The calls kept from the beginning leave the marks. -/
theorem Records.marks {x : StateM σ α} {y : StateM (Traced σ) α} {made : σ → List Mark}
    (h : Records x y made) (s : σ) : (y ⟨s, []⟩).2.calls.filterMap Call.mark? = made s := by
  obtain ⟨more, hy, hmore⟩ := h s []
  rw [hy, ← hmore]
  rfl

namespace Records

variable {made made' : σ → List Mark}

theorem congr {x : StateM σ α} {y : StateM (Traced σ) α} (h : Records x y made)
    (same : ∀ s, made s = made' s) : Records x y made' := fun s calls => by
  obtain ⟨more, hy, hmore⟩ := h s calls
  exact ⟨more, hy, hmore.trans (same s)⟩

theorem pure (a : α) : Records (Pure.pure a : StateM σ α) (Pure.pure a) fun _ => [] :=
  fun s calls => ⟨[], by rw [List.append_nil]; rfl, rfl⟩

theorem act_pure (a : α) :
    Records (Pure.pure a : Action σ α).run (Pure.pure a : Action (Traced σ) α).run fun _ => [] :=
  pure (Except.ok a)

/-- A call on a collaborator leaves its mark. -/
theorem after (call : Call) (x : StateM σ α) :
    Records x (Traced.after call x) fun _ => call.mark?.toList :=
  fun s calls => ⟨[call], rfl, by cases h : call.mark? <;> simp [h]⟩

theorem bind {x : StateM σ α} {y : StateM (Traced σ) α} {f : α → StateM σ β}
    {g : α → StateM (Traced σ) β} {rest : α → σ → List Mark} (hx : Records x y made)
    (hf : ∀ a, Records (f a) (g a) (rest a)) :
    Records (x >>= f) (y >>= g) fun s => made s ++ rest (x s).1 (x s).2 := fun s calls => by
  obtain ⟨more, hy, hmore⟩ := hx s calls
  obtain ⟨more', hg, hmore'⟩ := hf (x s).1 (x s).2 (calls ++ more)
  refine ⟨more ++ more', ?_, ?_⟩
  · rw [state_bind, hy, state_bind, hg, List.append_assoc]
  · rw [List.filterMap_append, hmore, hmore']

/-- An action may follow a computation that always has a result. -/
theorem lift_bind {x : StateM σ α} {y : StateM (Traced σ) α} {f : α → Action σ β}
    {g : α → Action (Traced σ) β} {rest : α → σ → List Mark} (hx : Records x y made)
    (hf : ∀ a, Records (f a).run (g a).run (rest a)) :
    Records (liftM x >>= f : Action σ β).run (liftM y >>= g : Action (Traced σ) β).run fun s =>
      made s ++ rest (x s).1 (x s).2 :=
  hx.bind hf

theorem silent_lift {x : StateM σ α} {y : StateM (Traced σ) α} {f : α → Action σ β}
    {g : α → Action (Traced σ) β} (hx : Records x y fun _ => [])
    (hf : ∀ a, Records (f a).run (g a).run fun _ => []) :
    Records (liftM x >>= f : Action σ β).run (liftM y >>= g : Action (Traced σ) β).run
      fun _ => [] :=
  hx.lift_bind hf

/-- An action that follows another one records what it records where the first has a result. -/
theorem act_bind {x : Action σ α} {y : Action (Traced σ) α} {f : α → Action σ β}
    {g : α → Action (Traced σ) β} {rest : α → σ → List Mark} (hx : Records x.run y.run made)
    (hf : ∀ a, Records (f a).run (g a).run (rest a)) :
    Records (x >>= f).run (y >>= g).run fun s =>
      made s ++ (x.reach s).elim [] fun (a, s) => rest a s := by
  have step : ∀ outcome : Except Stop α, Records (ExceptT.bindCont f outcome)
      (ExceptT.bindCont g outcome) fun s => outcome.toOption.elim [] fun a => rest a s := by
    rintro (stop | a)
    · exact .pure _
    · exact hf a
  refine (hx.bind step).congr fun s => congrArg (made s ++ ·) ?_
  rw [Action.reach]
  cases (x.run s).1 <;> rfl

/-- What records nothing adds nothing to what goes before it. -/
theorem bind_silent {x : StateM σ α} {y : StateM (Traced σ) α} {f : α → StateM σ β}
    {g : α → StateM (Traced σ) β} (hx : Records x y made)
    (hf : ∀ a, Records (f a) (g a) fun _ => []) : Records (x >>= f) (y >>= g) made :=
  (hx.bind hf).congr fun s => List.append_nil (made s)

theorem act_bind_silent {x : Action σ α} {y : Action (Traced σ) α} {f : α → Action σ β}
    {g : α → Action (Traced σ) β} (hx : Records x.run y.run made)
    (hf : ∀ a, Records (f a).run (g a).run fun _ => []) :
    Records (x >>= f).run (y >>= g).run made := by
  refine (hx.act_bind hf).congr fun s => ?_
  cases x.reach s <;> exact List.append_nil (made s)

/-- What is done with a result records nothing more. -/
theorem act_map {x : Action σ α} {y : Action (Traced σ) α} (hx : Records x.run y.run made)
    (f : α → β) :
    Records (do return f (← x) : Action σ β).run (do return f (← y) : Action (Traced σ) β).run
      made :=
  hx.act_bind_silent fun a => .act_pure (f a)

/-- An action that records nothing may go first. -/
theorem silent_bind {x : Action σ α} {y : Action (Traced σ) α} {f : α → Action σ β}
    {g : α → Action (Traced σ) β} {rest : α → σ → List Mark}
    (hx : Records x.run y.run fun _ => [])
    (hf : ∀ a, Records (f a).run (g a).run (rest a)) :
    Records (x >>= f).run (y >>= g).run fun s => (x.reach s).elim [] fun (a, s) => rest a s :=
  hx.act_bind hf

/-- A changed error leaves no mark. -/
theorem mapError {x : Action σ α} {y : Action (Traced σ) α} (h : Records x.run y.run made)
    (f f' : Error → Error) (same : f = f') :
    Records (x.mapError f).run (y.mapError f').run made := by
  subst same
  refine h.bind_silent fun outcome => ?_
  rcases outcome with (_ | _) | _ <;> exact .pure _

theorem silent_mapM {f : β → Action σ α} {g : β → Action (Traced σ) α}
    (h : ∀ b, Records (f b).run (g b).run fun _ => []) : ∀ bs : List β,
      Records (bs.mapM f).run (bs.mapM g).run fun _ => []
  | [] => .pure _
  | b :: bs => by
      rw [List.mapM_cons, List.mapM_cons]
      exact (h b).act_bind_silent fun a => (silent_mapM h bs).act_map (a :: ·)

end Records

end Wiring
