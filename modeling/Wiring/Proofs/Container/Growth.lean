import Wiring.Proofs.Blueprint.Growth
import Wiring.Proofs.Container.Along

/-!
# Containers — growth

`c.Grows c'` says what may become of a container while beans are looked up and made: a bean that is
there stays, a new one belongs to a singleton defined there, definitions come to remember more,
edges and logs are extended at the end, and nothing else that a look-up reads is changed.

**Every work on a chain, whether it succeeds, fails or stops half-way, lets each of its containers
grow** (`work_grows`).  The relation holds between the start and the end of a look-up, not from step
to step: a bean is put under a name that had none when the look-up began, although work in between
may have put one there.

`c.Continues c'` says in addition that the history is only extended.
-/

namespace Wiring

namespace Container

/-- What may become of a container while beans are looked up and made. -/
structure Grows (c c' : Container) : Prop where
  id : c'.id = c.id
  aliases : c'.aliases = c.aliases
  types : c'.types = c.types
  placeholders : c'.placeholders = c.placeholders
  staleCandidates : c'.staleCandidates = c.staleCandidates
  /-- The definitions are the same, but for what they remember. -/
  definitions (name : String) :
    Option.Rel BlueprintOf.Grows (c.definitions.get? name) (c'.definitions.get? name)
  /-- A bean stays the very same. -/
  retained {name : String} {bean : Managed} (h : c.singletons.get? name = some bean) :
    c'.singletons.get? name = some bean
  /-- A new bean belongs to a singleton defined here. -/
  introduced {name : String} {bean : Managed} (h : c'.singletons.get? name = some bean)
    (absent : c.singletons.get? name = none) :
    ∃ b, c.definitions.get? name = some b ∧ b.isSingleton
  dependents (name : String) : c.dependents.targets name <+: c'.dependents.targets name
  contained (name : String) : c.contained.targets name <+: c'.contained.targets name
  creations : c.creations <+: c'.creations
  unwrapped : c.unwrapped <+: c'.unwrapped

namespace Grows

variable {a b c : Container}

/-- A bean that is not there later was not there before. -/
theorem absent_before (h : a.Grows b) {name : String} (absent : b.singletons.get? name = none) :
    a.singletons.get? name = none := by
  cases made : a.singletons.get? name with
  | none => rfl
  | some bean =>
      rw [h.retained made] at absent
      cases absent

/-- A name without a definition had none before. -/
theorem undefined_before (h : a.Grows b) {name : String}
    (undefined : b.definitions.get? name = none) : a.definitions.get? name = none := by
  have hrel := h.definitions name
  rw [undefined] at hrel
  generalize a.definitions.get? name = origin at hrel
  cases hrel
  rfl

/-- The blueprint of a definition has grown from the one it had before. -/
theorem exists_definition (h : a.Grows b) {name : String} {left : Blueprint}
    (defined : b.definitions.get? name = some left) :
    ∃ origin, a.definitions.get? name = some origin ∧ origin.Grows left := by
  have hrel := h.definitions name
  rw [defined] at hrel
  generalize a.definitions.get? name = origin at hrel
  cases hrel with
  | some grows => exact ⟨_, rfl, grows⟩

theorem refl (c : Container) : c.Grows c where
  id := rfl
  aliases := rfl
  types := rfl
  placeholders := rfl
  staleCandidates := rfl
  definitions _ := optional_refl .refl _
  retained h := h
  introduced h absent := by rw [absent] at h; cases h
  dependents _ := List.prefix_refl _
  contained _ := List.prefix_refl _
  creations := List.prefix_refl _
  unwrapped := List.prefix_refl _

theorem trans (h : a.Grows b) (h' : b.Grows c) : a.Grows c where
  id := h'.id.trans h.id
  aliases := h'.aliases.trans h.aliases
  types := h'.types.trans h.types
  placeholders := h'.placeholders.trans h.placeholders
  staleCandidates := h'.staleCandidates.trans h.staleCandidates
  definitions name := optional_trans .trans (h.definitions name) (h'.definitions name)
  retained hbean := h'.retained (h.retained hbean)
  introduced {name _} hbean absent := by
    -- a bean that is there half-way was introduced before, any other one after
    cases hmid : b.singletons.get? name with
    | some bean => exact h.introduced hmid absent
    | none =>
        obtain ⟨later, hlater, hs⟩ := h'.introduced hbean hmid
        obtain ⟨origin, horigin, hgrows⟩ := h.exists_definition hlater
        exact ⟨origin, horigin, hgrows.isSingleton ▸ hs⟩
  dependents name := (h.dependents name).trans (h'.dependents name)
  contained name := (h.contained name).trans (h'.contained name)
  creations := h.creations.trans h'.creations
  unwrapped := h.unwrapped.trans h'.unwrapped

instance : IsPreorder Container Grows where
  refl := Grows.refl
  trans _ _ _ := Grows.trans

theorem canonical (h : a.Grows b) (name : String) : b.canonical name = a.canonical name := by
  rw [Container.canonical, h.aliases, Container.canonical]

/-- What a container holds stays what it holds. -/
theorem holds (h : a.Grows b) (name : String) :
    b.holds name = a.holds name := by
  have hdefined : b.definitions.contains name = a.definitions.contains name := by
    have hrel := h.definitions name
    rw [Table.contains, Table.contains]
    cases hd : a.definitions.get? name <;> cases hd' : b.definitions.get? name <;>
      simp only [hd, hd'] at hrel
    · rfl
    · cases hrel
    · cases hrel
    · rfl
  rw [Container.holds, Container.holds, hdefined]
  cases hs : a.singletons.get? name with
  | some bean =>
      rw [Table.contains, Table.contains, Table.contains, hs, h.retained hs]
  | none =>
      cases hs' : b.singletons.get? name with
      | none => rw [Table.contains, Table.contains, Table.contains, hs, hs']
      | some bean =>
          -- a new bean belongs to a definition, so the name was held before
          obtain ⟨blueprint, hblueprint, -⟩ := h.introduced hs' hs
          rw [Table.contains, Table.contains, Table.contains, hblueprint, hs, hs']
          rfl

end Grows

/-! ### The changes of a container are growth -/

theorem grows_registerDependent (c : Container) (x y : String) :
    c.Grows (c.registerDependent x y) :=
  { Grows.refl c with
    dependents := fun name => Edges.targets_prefix_register _ _ _ name }

theorem grows_contain (c : Container) (inner owner : String) :
    c.Grows { c with contained := (c.contained.register owner inner).2 } :=
  { Grows.refl c with contained := fun name => Edges.targets_prefix_register _ _ _ name }

theorem grows_registerContained (c : Container) (inner owner : String) :
    c.Grows (c.registerContained inner owner) :=
  (grows_contain c inner owner).trans (grows_registerDependent _ inner owner)

theorem grows_grant (c : Container) (name : String) : c.Grows (c.grant name) :=
  { Grows.refl c with }

theorem grows_learn (c : Container) (name : String) (left : Blueprint) :
    c.Grows (c.learn name left) := by
  rw [learn]
  split
  next b hb =>
    refine { Grows.refl c with definitions := fun name' => ?_ }
    dsimp only
    rw [Table.get?_insert]
    split
    next h => rw [h, hb]; exact .some (b.grows_absorb left)
    next => exact optional_refl .refl _
  next => exact Grows.refl c

/-- A bean that is kept is new since the work on it began, and belongs to a singleton. -/
theorem grows_keep {c c' : Container} {name : String} {b : Blueprint} (bean : Managed)
    (h : c.Grows c') (absent : c.singletons.get? name = none)
    (defined : c.definitions.get? name = some b) : c.Grows (c'.keep name b bean) := by
  rw [keep]
  split
  next hs =>
    refine { h with
      retained := fun {name' _} hbean => ?_
      introduced := fun {name' _} hbean habsent => ?_ }
    · have hne : name' ≠ name := by
        rintro rfl
        rw [absent] at hbean
        cases hbean
      rw [Table.get?_insert, if_neg hne]
      exact h.retained hbean
    · rw [Table.get?_insert] at hbean
      split at hbean
      next heq => exact ⟨b, heq ▸ defined, hs⟩
      next => exact h.introduced hbean habsent
  next => exact h

theorem grows_note (c : Container) (e : Event) : c.Grows (c.note e) :=
  { Grows.refl c with }

/-- A bean whose making is over is new since the making began. -/
theorem grows_conclude {c c' : Container} {name : String} {b : Blueprint} {bean : Option Managed}
    (h : (c.note (.began name)).Grows c') (absent : c.singletons.get? name = none)
    (defined : c.definitions.get? name = some b) : c.Grows (c'.conclude name b bean) := by
  have h : c.Grows c' := (grows_note c _).trans h
  cases bean with
  | none => exact h.trans (grows_note c' _)
  | some bean => exact (grows_keep bean h absent defined).trans (grows_note _ _)

theorem workAlong_grows : WorkAlong Grows where
  registerDependent := grows_registerDependent
  registerContained := grows_registerContained
  claim c name owner _ :=
    (grows_grant c name).trans (grows_registerContained (c.grant name) name owner)
  begin c _ := { Grows.refl c with creations := List.prefix_append _ _ }
  newObject c _ := { Grows.refl c with }
  unwrap c _ _ := { Grows.refl c with unwrapped := List.prefix_append _ _ }
  learn := grows_learn
  found c _ _ _ := grows_note c _
  conclude h absent defined _ := grows_conclude h absent defined
  made {_ _ _ _ _ _ _ c} _ noted := noted ▸ grows_note c _

/-! ### Growth with a history -/

/-- The container has grown, and its history was extended. -/
structure Continues (c c' : Container) : Prop extends Grows c c' where
  history : c.history <+: c'.history

namespace Continues

variable {a b c : Container}

theorem refl (c : Container) : c.Continues c := ⟨.refl c, List.prefix_refl _⟩

theorem trans (h : a.Continues b) (h' : b.Continues c) : a.Continues c :=
  ⟨h.toGrows.trans h'.toGrows, h.history.trans h'.history⟩

instance : IsPreorder Container Continues where
  refl := Continues.refl
  trans _ _ _ := Continues.trans

/-- Growth without an event. -/
theorem of_grows (h : a.Grows b) (history : b.history = a.history) : a.Continues b :=
  ⟨h, history ▸ List.prefix_refl _⟩

end Continues

theorem continues_note (c : Container) (e : Event) : c.Continues (c.note e) :=
  ⟨grows_note c e, List.prefix_append _ _⟩

theorem continues_conclude {c c' : Container} {name : String} {b : Blueprint}
    {bean : Option Managed} (h : (c.note (.began name)).Continues c')
    (absent : c.singletons.get? name = none) (defined : c.definitions.get? name = some b) :
    c.Continues (c'.conclude name b bean) := by
  refine ⟨grows_conclude h.toGrows absent defined, ?_⟩
  rw [conclude_eq]
  exact (List.prefix_append _ _).trans (h.history.trans (List.prefix_append _ _))

theorem workAlong_continues : WorkAlong Continues where
  registerDependent c a b := .of_grows (grows_registerDependent c a b) rfl
  registerContained c inner owner := .of_grows (grows_registerContained c inner owner) rfl
  claim c name owner free := .of_grows (workAlong_grows.claim c name owner free) rfl
  begin c creation := .of_grows (workAlong_grows.begin c creation) rfl
  newObject c n := .of_grows (workAlong_grows.newObject c n) rfl
  unwrap c entry h := .of_grows (workAlong_grows.unwrap c entry h) rfl
  learn c name left := .of_grows (grows_learn c name left) (by rw [learn_eq])
  found c _ _ _ := continues_note c _
  conclude h absent defined _ := continues_conclude h absent defined
  made {_ _ _ _ _ _ _ c} _ noted := noted ▸ continues_note c _

end Container

/-- **Every work on a chain lets each of its containers grow**, however deep it goes, also when it
stops half-way: resolving a raw value for any bean, looking up a bean, making an object and
unwrapping a factory. -/
theorem Chain.work_grows (depth : Nat) (chain : Chain) :
    (∀ evaluation bean blueprint naming path raw,
      Each Container.Grows chain
        (Resolver.resolve ⟨collaborators (create depth) evaluation, bean, blueprint, naming⟩ path
          raw chain).2) ∧
    (∀ name, Each Container.Grows chain ((getByName (create depth) name).run chain).2) ∧
    (∀ ty, Each Container.Grows chain ((getByType (create depth) ty).run chain).2) ∧
    (∀ ty, Each Container.Grows chain ((resolveNamedByType (create depth) ty).run chain).2) ∧
    (∀ d requesting,
      Each Container.Grows chain ((resolveDependency (create depth) d requesting).run chain).2) ∧
    (∀ name b, Each Container.Grows chain (create depth name b chain).2) ∧
    ∀ factory name postProcess,
      Each Container.Grows chain ((unwrapProduct factory name postProcess).run chain).2 := by
  have hQ := Container.workAlong_grows
  have hm := create_along hQ depth
  refine ⟨?_, ?_, ?_, ?_, ?_, ?_, ?_⟩
  · intro evaluation bean blueprint naming path raw
    exact Resolver.resolve_along (goesAlong hQ hm rfl) path raw chain
  · exact fun name => getByName_along hQ hm name chain
  · exact fun ty => getByType_along hQ hm ty chain
  · exact fun ty => resolveNamedByType_along hQ hm ty chain
  · exact fun d requesting => resolveDependency_along hQ hm d requesting chain
  · exact fun name b => hm name b chain
  · exact fun factory name postProcess => unwrapProduct_along hQ factory name postProcess chain

end Wiring
