import Wiring.Proofs.Container.Growth

/-!
# Containers — what the history tells

From its history one reads which names were registered in a container (`registrations`), which
beans it handed out for a name (`handed`), and how the making of a name's bean stands (`progress`):
whether it is under way, and whether it was ever begun again while it was.

**A bean that a container has for one of its names is noted there when it is handed out**
(`findByName_handed_own`).
-/

namespace Wiring

namespace Event

/-- The name that was registered. -/
def registered? : Event → Option String
  | registered name => some name
  | _ => none

/-- The bean that was handed out for the name. -/
def handed? (name : String) : Event → Option Managed
  | ended other bean => if other = name then bean else none
  | found other bean => if other = name then some bean else none
  | _ => none

end Event

/-- How the making of a bean stands. -/
inductive Progress where
  | idle
  | underWay
  /-- It was begun again while it was under way. -/
  | overlapping
  deriving DecidableEq

/-- How the making of the bean of a name stands after an event. -/
def Progress.after (name : String) : Progress → Event → Progress
  | idle, .began other => if other = name then underWay else idle
  | underWay, .began other => if other = name then overlapping else underWay
  | underWay, .ended other _ => if other = name then idle else underWay
  | progress, _ => progress

namespace Progress

variable (name : String) (p : Progress)

theorem after_registered (other : String) : p.after name (.registered other) = p := by
  cases p <;> rfl

theorem after_found (other : String) (bean : Managed) : p.after name (.found other bean) = p := by
  cases p <;> rfl

theorem after_made (other : String) (b : Blueprint) : p.after name (.made other b) = p := by
  cases p <;> rfl

end Progress

namespace Container

/-- The names registered in the container, in order. -/
def registrations (c : Container) : List String :=
  c.history.filterMap Event.registered?

/-- The beans handed out for the name, in order. -/
def handed (c : Container) (name : String) : List Managed :=
  c.history.filterMap (Event.handed? name)

/-- How the making of the bean of the name stands. -/
def progress (c : Container) (name : String) : Progress :=
  c.history.foldl (Progress.after name) .idle

/-! ### One event more -/

variable (c : Container) (e : Event) (name : String)

theorem registrations_note :
    (c.note e).registrations = c.registrations ++ e.registered?.toList := by
  rw [registrations, note, List.filterMap_append]
  cases h : e.registered? <;> simp [h, registrations]

theorem handed_note : (c.note e).handed name = c.handed name ++ (e.handed? name).toList := by
  rw [handed, note, List.filterMap_append]
  cases h : e.handed? name <;> simp [h, handed]

theorem registrations_note_of_none {e : Event} (h : e.registered? = none) :
    (c.note e).registrations = c.registrations := by
  rw [registrations_note, h]
  exact List.append_nil _

theorem handed_note_of_none {e : Event} {name : String} (h : e.handed? name = none) :
    (c.note e).handed name = c.handed name := by
  rw [handed_note, h]
  exact List.append_nil _

theorem progress_note : (c.note e).progress name = (c.progress name).after name e :=
  List.foldl_append

theorem mem_handed_found (bean : Managed) : bean ∈ (c.note (.found name bean)).handed name := by
  rw [handed_note]
  simp [Event.handed?]

theorem mem_handed_conclude (b : Blueprint) (bean : Managed) :
    bean ∈ (c.conclude name b (some bean)).handed name := by
  rw [conclude, handed_note]
  simp [Event.handed?]

end Container

namespace Chain

variable {depth : Nat} {chain after : Chain} {bean : Managed}

/-- The bean that is made of a definition is noted where the definition is. -/
theorem realize_handed {name : String} {b : Blueprint}
    (h : (realize (create depth) name b).run chain = (.ok bean, after)) :
    bean ∈ after.own.handed name := by
  rw [run_realize] at h
  obtain ⟨hmade, rfl⟩ := Prod.mk.inj h
  rw [hmade]
  exact Container.mem_handed_conclude _ name b bean

/-- **A bean that the own container holds is noted there.** -/
theorem findByName_handed_own {height : Nat} {name : String}
    (held : chain.own.holds (chain.own.canonical name))
    (h : (findByName (create depth) height name).run chain = (.ok bean, after)) :
    bean ∈ after.own.handed (chain.own.canonical name) := by
  cases made : chain.own.singletons.get? (chain.own.canonical name) with
  | some found =>
      rw [findByName_made _ made] at h
      cases h
      exact Container.mem_handed_found _ _ _
  | none =>
      cases defined : chain.own.definitions.get? (chain.own.canonical name) with
      | some b =>
          rw [findByName_defined _ made defined] at h
          exact realize_handed h
      | none => simp [Container.holds, Table.contains, made, defined] at held

/-- A bean of a name that the own container does not hold comes from the container above. -/
theorem findByName_above_of_unheld {height : Nat} {name : String}
    (missing : ¬ chain.own.holds (chain.own.canonical name))
    (h : (findByName (create depth) height name).run chain = (.ok bean, after)) :
    ∃ below up rest s, height = below + 1 ∧ chain.ancestors = up :: rest ∧
      (findByName (create depth) below (chain.own.canonical name)).run ⟨up, rest⟩ = (.ok bean, s) ∧
      after = ⟨chain.own, s.own :: s.ancestors⟩ := by
  rw [Container.holds, Bool.or_eq_true, not_or] at missing
  have defined := Option.not_isSome_iff_eq_none.1 missing.1
  have made := Option.not_isSome_iff_eq_none.1 missing.2
  cases height with
  | zero => rw [findByName_absent made defined] at h; cases h
  | succ below =>
      rw [findByName_above below made defined] at h
      cases above : chain.ancestors with
      | nil => rw [run_inParent_nil _ _ above] at h; cases h
      | cons up rest =>
          rw [run_inParent_cons _ _ above] at h
          obtain ⟨hbean, rfl⟩ := Prod.mk.inj h
          exact ⟨below, up, rest, _, rfl, rfl, Prod.ext hbean rfl, rfl⟩

end Chain

end Wiring
