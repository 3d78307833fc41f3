import Wiring.Proofs.Container.History

/-!
# Containers — one bean for a singleton

A singleton is kept only when it is made: until then a second making of it may begin, and end with
another bean.  `Container.Orderly` is the invariant of a container in which no name is registered
twice: **the beans handed out for a singleton are the one that is kept, unless the making of it was
begun again while it was under way**, and while it is under way none is kept.

`c.Serves c'` says that the history is extended, and the invariant kept as long as no name is
registered twice.  As for growth, the end of a making is related to its begin (`serves_conclude`):
the bean is kept in a container that other work has changed meanwhile.
-/

namespace Wiring.Container

/-- The scope of the definition of the name. -/
def scope? (c : Container) (name : String) : Option Scope :=
  (c.definitions.get? name).map BlueprintOf.scope

/-- The beans handed out for the name of a singleton are the one that is kept. -/
structure Orderly (c : Container) : Prop where
  unregistered {name : String} (h : name ∉ c.registrations) :
    c.scope? name = none ∧ c.singletons.get? name = none ∧ c.handed name = []
  one {name : String} {bean : Managed} (defined : c.scope? name = some .singleton)
    (apart : c.progress name ≠ .overlapping) (h : bean ∈ c.handed name) :
    c.singletons.get? name = some bean
  pending {name : String} (defined : c.scope? name = some .singleton)
    (h : c.progress name = .underWay) : c.singletons.get? name = none

/-- The history is extended, the making of a bean that was under way still is, or was begun again
meanwhile, and as long as no name is registered twice, the scopes of the registered names and the
invariant are kept. -/
structure Serves (c c' : Container) : Prop where
  id : c'.id = c.id
  history : c.history <+: c'.history
  progress (name : String) : c'.progress name = c.progress name ∨ c'.progress name = .overlapping
  scopes (once : c'.registrations.Nodup) {name : String} (h : name ∈ c.registrations) :
    c'.scope? name = c.scope? name
  orderly (once : c'.registrations.Nodup) (h : c.Orderly) : c'.Orderly

variable {a b c c' : Container} {name : String} {e : Event}

theorem registrations_of_history (h : a.history <+: b.history) :
    a.registrations <+: b.registrations :=
  h.filterMap _

/-- A change of nothing the invariant speaks of. -/
theorem Orderly.of_same (h : a.Orderly) (registrations : b.registrations = a.registrations)
    (handed : ∀ name, b.handed name = a.handed name)
    (progress : ∀ name, b.progress name = a.progress name)
    (singletons : b.singletons = a.singletons) (scopes : ∀ name, b.scope? name = a.scope? name) :
    b.Orderly := by
  refine ⟨fun {name} hname => ?_, fun {name bean} defined apart hbean => ?_,
    fun {name} defined hway => ?_⟩
  · rw [scopes, singletons, handed]
    exact h.unregistered (registrations ▸ hname)
  · rw [scopes] at defined
    rw [progress] at apart
    rw [handed] at hbean
    rw [singletons]
    exact h.one defined apart hbean
  · rw [scopes] at defined
    rw [progress] at hway
    rw [singletons]
    exact h.pending defined hway

namespace Serves

theorem refl (c : Container) : c.Serves c :=
  ⟨rfl, List.prefix_refl _, fun _ => .inl rfl, fun _ _ _ => rfl, fun _ h => h⟩

theorem trans (h : a.Serves b) (h' : b.Serves c) : a.Serves c := by
  have before : c.registrations.Nodup → b.registrations.Nodup := fun once =>
    once.sublist (registrations_of_history h'.history).sublist
  refine ⟨h'.id.trans h.id, h.history.trans h'.history, fun name => ?_, fun once {name} hname => ?_,
    fun once ha => h'.orderly once (h.orderly (before once) ha)⟩
  · rcases h'.progress name with hc | hc
    · rw [hc]; exact h.progress name
    · exact .inr hc
  · rw [h'.scopes once ((registrations_of_history h.history).subset hname),
      h.scopes (before once) hname]

instance : IsPreorder Container Serves where
  refl := Serves.refl
  trans _ _ _ := Serves.trans

/-- A change of nothing the invariant speaks of. -/
theorem of_eq (id : b.id = a.id) (history : b.history = a.history)
    (singletons : b.singletons = a.singletons) (scopes : ∀ name, b.scope? name = a.scope? name) :
    a.Serves b := by
  have progress : ∀ name, b.progress name = a.progress name := fun name => by
    rw [Container.progress, history, Container.progress]
  refine ⟨id, history ▸ List.prefix_refl _, fun name => .inl (progress name),
    fun _ {name} _ => scopes name,
    fun _ h => h.of_same ?_ (fun name => ?_) progress singletons scopes⟩
  · rw [registrations, history, registrations]
  · rw [handed, history, handed]

end Serves

/-! ### Registrations -/

section Register

variable (name : String) (history : b.history = a.history ++ [.registered name])

include history

theorem registrations_register : b.registrations = a.registrations ++ [name] := by
  rw [registrations, history]
  exact registrations_note a (.registered name)

theorem handed_register (other : String) : b.handed other = a.handed other := by
  rw [handed, history]
  exact handed_note_of_none a rfl

theorem progress_register (other : String) : b.progress other = a.progress other := by
  rw [Container.progress, history]
  exact (progress_note a (.registered name) other).trans (Progress.after_registered other _ name)

variable (scopes : ∀ other, other ≠ name → b.scope? other = a.scope? other)
  (singletons : ∀ other, other ≠ name → b.singletons.get? other = a.singletons.get? other)
  (either : b.scope? name = a.scope? name ∨ b.singletons = a.singletons)

include scopes singletons either

/-- The invariant stays when a name is registered for the first time and gets a definition or a
bean, but not both. -/
theorem orderly_register (hnew : name ∉ a.registrations) (h : a.Orderly) : b.Orderly := by
  obtain ⟨hscope, hbean, hnone⟩ := h.unregistered hnew
  refine ⟨fun {other} hother => ?_, fun {other bean} defined apart hmem => ?_,
    fun {other} defined hway => ?_⟩
  · rw [registrations_register name history, List.mem_append, not_or] at hother
    have hne : other ≠ name := fun heq => hother.2 (List.mem_singleton.2 heq)
    rw [scopes other hne, singletons other hne, handed_register name history]
    exact h.unregistered hother.1
  · rw [handed_register name history] at hmem
    -- nothing was handed out for a name before it is registered
    have hne : other ≠ name := by
      rintro rfl
      rw [hnone] at hmem
      cases hmem
    rw [scopes other hne] at defined
    rw [progress_register name history] at apart
    rw [singletons other hne]
    exact h.one defined apart hmem
  · rw [progress_register name history] at hway
    by_cases hne : other = name
    · subst hne
      rcases either with heq | heq
      · rw [heq, hscope] at defined
        cases defined
      · rw [heq]
        exact hbean
    · rw [scopes other hne] at defined
      rw [singletons other hne]
      exact h.pending defined hway

theorem serves_register (id : b.id = a.id) : a.Serves b := by
  have hnew : b.registrations.Nodup → name ∉ a.registrations := fun once hname => by
    rw [registrations_register name history] at once
    exact (List.nodup_append.1 once).2.2 name hname name (List.mem_singleton.2 rfl) rfl
  refine ⟨id, ⟨[.registered name], history.symm⟩,
    fun other => .inl (progress_register name history other),
    fun once {other} hother => scopes other ?_,
    fun once => orderly_register name history scopes singletons either (hnew once)⟩
  rintro rfl
  exact hnew once hother

end Register

theorem scope?_of_insert {blueprint : Blueprint}
    (h : b.definitions = a.definitions.insert name blueprint) (other : String) :
    b.scope? other = if other = name then some blueprint.scope else a.scope? other := by
  rw [scope?, h, Table.get?_insert]
  split <;> rfl

/-! ### The changes of a container keep the invariant -/

theorem serves_learn (c : Container) (name : String) (left : Blueprint) :
    c.Serves (c.learn name left) := by
  rw [learn]
  split
  next b hb =>
    refine .of_eq rfl rfl rfl fun other => ?_
    rw [scope?_of_insert (a := c) rfl]
    split
    next heq => rw [scope?, heq, hb]; rfl
    next => rfl
  next => exact .refl c

/-- The bean that is handed out is the one that is kept. -/
theorem serves_found (c : Container) {bean : Managed}
    (present : c.singletons.get? name = some bean) : c.Serves (c.note (.found name bean)) := by
  have hprogress : ∀ other, (c.note (.found name bean)).progress other = c.progress other :=
    fun other => (progress_note c _ other).trans (Progress.after_found other _ name bean)
  have hregistrations : (c.note (.found name bean)).registrations = c.registrations :=
    registrations_note_of_none c rfl
  refine ⟨rfl, List.prefix_append _ _, fun other => .inl (hprogress other), fun _ _ _ => rfl,
    fun _ h => ⟨fun {other} hother => ?_, fun {other handed} defined apart hmem => ?_,
      fun {other} defined hway => ?_⟩⟩
  · rw [hregistrations] at hother
    obtain ⟨hscope, hbean, hnone⟩ := h.unregistered hother
    refine ⟨hscope, hbean, ?_⟩
    have hne : name ≠ other := by
      rintro rfl
      rw [present] at hbean
      cases hbean
    rw [handed_note, hnone]
    simp [Event.handed?, hne]
  · rw [hprogress] at apart
    rw [handed_note, List.mem_append] at hmem
    rcases hmem with hmem | hmem
    · exact h.one defined apart hmem
    · rw [Event.handed?] at hmem
      split at hmem
      next heq =>
        subst heq
        obtain rfl := List.mem_singleton.1 hmem
        exact present
      next => cases hmem
  · rw [hprogress] at hway
    exact h.pending defined hway

theorem serves_made (c : Container) (name : String) (b : Blueprint) :
    c.Serves (c.note (.made name b)) := by
  have progress : ∀ other, (c.note (.made name b)).progress other = c.progress other :=
    fun other => (progress_note c _ other).trans (Progress.after_made other _ name b)
  exact ⟨rfl, List.prefix_append _ _, fun other => .inl (progress other), fun _ _ _ => rfl,
    fun _ h => h.of_same (registrations_note_of_none c rfl)
      (fun _ => handed_note_of_none c rfl) progress rfl fun _ => rfl⟩

/-- A making begins where no bean is kept. -/
theorem orderly_began (h : c.Orderly) (absent : c.singletons.get? name = none) :
    (c.note (.began name)).Orderly := by
  have hhanded : ∀ other, (c.note (.began name)).handed other = c.handed other :=
    fun _ => handed_note_of_none c rfl
  have hregistrations : (c.note (.began name)).registrations = c.registrations :=
    registrations_note_of_none c rfl
  have hother : ∀ other, other ≠ name →
      (c.note (.began name)).progress other = c.progress other := fun other hne => by
    rw [progress_note]
    cases c.progress other <;> simp [Progress.after, hne.symm]
  refine ⟨fun {other} hname => ?_, fun {other bean} defined apart hmem => ?_,
    fun {other} defined hway => ?_⟩
  · rw [hhanded]
    rw [hregistrations] at hname
    exact h.unregistered hname
  · rw [hhanded] at hmem
    refine h.one defined (fun hover => apart ?_) hmem
    rw [progress_note, hover]
    rfl
  · by_cases hne : other = name
    · rw [hne]
      exact absent
    · rw [hother other hne] at hway
      exact h.pending defined hway

/-! ### The end of a making -/

section Conclude

variable (c : Container) (name : String) (b : Blueprint) (bean : Option Managed) (other : String)

theorem history_conclude : (c.conclude name b bean).history = c.history ++ [.ended name bean] := by
  rw [conclude_eq]

theorem scope?_conclude : (c.conclude name b bean).scope? other = c.scope? other := by
  rw [conclude_eq]
  rfl

theorem registrations_conclude : (c.conclude name b bean).registrations = c.registrations := by
  rw [registrations, history_conclude, List.filterMap_append]
  exact List.append_nil _

theorem progress_conclude :
    (c.conclude name b bean).progress other =
      (c.progress other).after other (.ended name bean) := by
  rw [Container.progress, history_conclude]
  exact List.foldl_append

theorem handed_conclude :
    (c.conclude name b bean).handed other =
      c.handed other ++ if name = other then bean.toList else [] := by
  rw [handed, history_conclude, List.filterMap_append]
  by_cases h : name = other
  · cases bean <;> simp [Event.handed?, h, handed]
  · simp [Event.handed?, h, handed]

variable {name other}

theorem singletons_conclude_of_ne (h : other ≠ name) :
    (c.conclude name b bean).singletons.get? other = c.singletons.get? other := by
  rw [conclude_eq]
  cases bean with
  | none => rfl
  | some bean =>
      dsimp only
      split
      · rw [Table.get?_insert, if_neg h]
      · rfl

end Conclude

/-- A making of the name that has ended is no longer under way; how another stands is as it was. -/
theorem progress_of_conclude {before during : Progress} {bean : Option Managed} {other : String}
    (h : during = before.after other (.began name) ∨ during = .overlapping) :
    during.after other (.ended name bean) = before ∨
      during.after other (.ended name bean) = .overlapping := by
  rcases h with rfl | rfl
  · by_cases heq : name = other <;> cases before <;> simp [Progress.after, heq]
  · exact .inr rfl

/-- A making that is not begun again is under way until it ends. -/
theorem underWay_of_apart {before during : Progress} {bean : Option Managed}
    (h : during = before.after name (.began name) ∨ during = .overlapping)
    (apart : during.after name (.ended name bean) ≠ .overlapping) : during = .underWay := by
  rcases h with rfl | rfl
  · cases before with
    | idle => simp [Progress.after]
    | underWay => simp [Progress.after] at apart
    | overlapping => exact absurd rfl apart
  · exact absurd rfl apart

/-- **The bean of a singleton that is made once at a time is the only one**: none is kept when its
making ends, although other work was done since it began. -/
theorem orderly_conclude {b : Blueprint} {bean : Option Managed}
    (h : (c.note (.began name)).Serves c') (registered : name ∈ c.registrations)
    (defined : c.scope? name = some b.scope) (once : c'.registrations.Nodup)
    (orderly : c'.Orderly) : (c'.conclude name b bean).Orderly := by
  have hscope : c'.scope? name = some b.scope := by
    rw [h.scopes once (by rw [registrations_note]; exact List.mem_append_left _ registered)]
    exact defined
  have hprogress := h.progress name
  rw [progress_note] at hprogress
  refine ⟨fun {other} hother => ?_, fun {other handed} singleton apart hmem => ?_,
    fun {other} singleton hway => ?_⟩
  · rw [registrations_conclude] at hother
    have hne : other ≠ name := by
      rintro rfl
      rw [(orderly.unregistered hother).1] at hscope
      cases hscope
    rw [scope?_conclude, singletons_conclude_of_ne _ _ _ hne, handed_conclude, if_neg hne.symm,
      List.append_nil]
    exact orderly.unregistered hother
  · rw [scope?_conclude] at singleton
    rw [progress_conclude] at apart
    rw [handed_conclude] at hmem
    by_cases hne : other = name
    · subst hne
      -- the making was under way all the time, so nothing had been handed out for the name
      have hway := underWay_of_apart hprogress apart
      have hnone := orderly.pending singleton hway
      rw [if_pos rfl, List.mem_append] at hmem
      rcases hmem with hmem | hmem
      · rw [orderly.one singleton (by rw [hway]; decide) hmem] at hnone
        cases hnone
      · obtain rfl := Option.mem_toList.1 hmem
        have hs : b.isSingleton := by
          rw [hscope] at singleton
          rw [BlueprintOf.isSingleton, Option.some.inj singleton]
          rfl
        rw [conclude_eq]
        dsimp only
        rw [if_pos hs, Table.get?_insert, if_pos rfl]
    · rw [if_neg (Ne.symm hne), List.append_nil] at hmem
      rw [singletons_conclude_of_ne _ _ _ hne]
      refine orderly.one singleton (fun hover => apart ?_) hmem
      rw [hover]
      rfl
  · rw [scope?_conclude] at singleton
    rw [progress_conclude] at hway
    by_cases hne : other = name
    · subst hne
      cases hp : c'.progress other <;> simp [hp, Progress.after] at hway
    · rw [singletons_conclude_of_ne _ _ _ hne]
      refine orderly.pending singleton ?_
      cases hp : c'.progress other <;> simp [hp, Progress.after] at hway ⊢

theorem serves_conclude {b : Blueprint} {bean : Option Managed}
    (h : (c.note (.began name)).Serves c') (absent : c.singletons.get? name = none)
    (defined : c.definitions.get? name = some b) : c.Serves (c'.conclude name b bean) := by
  have hscope : c.scope? name = some b.scope := by
    rw [scope?, defined]
    rfl
  have hbegan : c.registrations = (c.note (.began name)).registrations :=
    (registrations_note_of_none c rfl).symm
  refine ⟨?_, ?_, fun other => ?_, fun once {other} hother => ?_, fun once orderly => ?_⟩
  · rw [conclude_eq]
    exact h.id
  · rw [history_conclude]
    exact (List.prefix_append _ _).trans (h.history.trans (List.prefix_append _ _))
  · have hprogress := h.progress other
    rw [progress_note] at hprogress
    rw [progress_conclude]
    exact progress_of_conclude hprogress
  · rw [registrations_conclude] at once
    rw [scope?_conclude, h.scopes once (hbegan ▸ hother)]
    rfl
  · rw [registrations_conclude] at once
    have registered : name ∈ c.registrations := by
      by_contra hname
      rw [(orderly.unregistered hname).1] at hscope
      cases hscope
    exact orderly_conclude h registered hscope once (h.orderly once (orderly_began orderly absent))

theorem workAlong_serves : WorkAlong Serves where
  registerDependent _ _ _ := .of_eq rfl rfl rfl fun _ => rfl
  registerContained _ _ _ := .of_eq rfl rfl rfl fun _ => rfl
  claim _ _ _ _ := .of_eq rfl rfl rfl fun _ => rfl
  begin _ _ := .of_eq rfl rfl rfl fun _ => rfl
  newObject _ _ := .of_eq rfl rfl rfl fun _ => rfl
  unwrap _ _ _ := .of_eq rfl rfl rfl fun _ => rfl
  learn := serves_learn
  found c _ _ present := serves_found c present
  conclude h absent defined _ := serves_conclude h absent defined
  made {_ _ _ _ _ _ _ c} _ noted := noted ▸ serves_made c _ _

end Wiring.Container
