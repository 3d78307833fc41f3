import Wiring.Proofs.Container.Candidates

/-!
# Containers — the class of what a type leads to

A look-up by type chooses a name for its definition or for its bean, and then looks up the bean of
that name like any other.  The two may be at odds in three ways (`Container.Misleads`): the name is
an alias for another one, the definition is that of a factory, of which the product is handed out,
or the name has a bean as well as the definition it was chosen for.

**An object that is found by its class is of that class, unless the name that was chosen misleads**
(`byType_fits`): as the bean of a type, for an injection point, and by a reference to a type, here
or above.  Each of the three ways does lead to objects of another class.
-/

namespace Wiring

/-- The value is of the class if it is an object. -/
def Value.Fits (className : String) (v : Value) : Prop :=
  ∀ o, v = .object o → o.typeName = className

namespace Container

/-- The name is a candidate of the class, or will be one if its bean turns out to be of the
class. -/
def Suits (c : Container) (className name : String) : Prop :=
  name ∈ c.candidates (.named className) ∨
    ∃ b, c.definitions.get? name = some b ∧ b.Conceals className

/-- The bean of a name may be of another class than the one for which the name is a candidate. -/
inductive Misleads (c : Container) (className name : String) : Prop where
  /-- The name is an alias for another one. -/
  | byname (suits : c.Suits className name) (other : c.canonical name ≠ name)
  /-- The class is that of factories, of which the product is handed out. -/
  | product {b : Blueprint} (defined : c.definitions.get? name = some b)
    (declared : b.className = some className) (factory : className = Chain.factoryClass)
  /-- A bean of another class was registered, or made, before the name got its definition. -/
  | apart {b : Blueprint} {bean : Managed} (defined : c.definitions.get? name = some b)
    (declared : b.className = some className) (made : c.singletons.get? name = some bean)
    (other : ¬ bean.toValue.Fits className)

variable {c c' : Container} {className name : String} {b : Blueprint} {bean : Managed}

theorem fits_of_hasClass (h : hasClass className bean) : bean.toValue.Fits className := by
  intro o ho
  match bean, h with
  | .value (.object o'), h =>
      cases ho
      exact eq_of_beq h

/-- What a definition of a class gives is of the class, unless it is a product. -/
theorem fits_of_gives (gives : b.Gives bean) (declared : b.className = some className)
    (plain : className ≠ Chain.factoryClass) : bean.toValue.Fits className := by
  rcases gives with factory | ⟨o, ho, rfl⟩
  · exact absurd (Option.some.inj (declared.symm.trans factory)) plain
  · intro o' ho'
    rw [declared, Option.getD_some] at ho ho'
    rw [Chain.manage, if_neg plain] at ho'
    split at ho' <;> cases ho'
    exact ho

/-- **A name that misleads has done so from the start**: no work makes a name mislead. -/
theorem Misleads.of_reveals (h : c.Reveals c') (misleads : c'.Misleads className name) :
    c.Misleads className name := by
  cases misleads with
  | byname suits other =>
      refine .byname ?_ (h.canonical name ▸ other)
      rcases suits with candidate | ⟨left, hleft, conceals⟩
      · refine ((candidates_of_reveals h _ name).1 candidate).imp_right ?_
        rintro ⟨_, _, b, heq, -, -, -, defined, -, conceals⟩
        cases heq
        exact ⟨b, defined, conceals⟩
      · obtain ⟨b, defined, grows⟩ := h.exists_definition hleft
        rw [BlueprintOf.Conceals, grows.className] at conceals
        exact .inr ⟨b, defined, conceals⟩
  | product hleft declared factory =>
      obtain ⟨b, defined, grows⟩ := h.exists_definition hleft
      exact .product defined (grows.className ▸ declared) factory
  | apart hleft declared made other =>
      obtain ⟨b, defined, grows⟩ := h.exists_definition hleft
      have declared : b.className = some className := grows.className ▸ declared
      cases before : c.singletons.get? name with
      | some bean =>
          obtain rfl := Option.some.inj ((h.retained before).symm.trans made)
          exact .apart defined declared before other
      | none =>
          -- a bean that is new is what the definition gives
          obtain ⟨b', defined', -, gives⟩ := h.gives made before
          obtain rfl := Option.some.inj (defined.symm.trans defined')
          by_cases factory : className = Chain.factoryClass
          · exact .product defined declared factory
          · exact absurd (fits_of_gives gives declared factory) other

/-- Without aliases and without beans that were registered for a definition, only factories
mislead. -/
theorem not_misleads (unaliased : c.aliases = .empty)
    (single : ∀ other, c.definitions.get? other = none ∨ c.singletons.get? other = none)
    (plain : className ≠ Chain.factoryClass) : ¬ c.Misleads className name := by
  rintro (⟨-, other⟩ | ⟨-, -, factory⟩ | ⟨defined, -, made, -⟩)
  · exact other (by rw [canonical, unaliased]; rfl)
  · exact plain factory
  · rcases single name with none | none
    · rw [none] at defined; cases defined
    · rw [none] at made; cases made

end Container

namespace Chain

variable {depth : Nat} {chain s : Chain} {className name : String}

/-- The bean of a candidate that does not mislead is of the class. -/
theorem getByName_fits {bean : Managed} (candidate : name ∈ chain.own.candidates (.named className))
    (found : (getByName (create depth) name).run chain = (.ok bean, s)) :
    bean.toValue.Fits className ∨ chain.own.Misleads className name := by
  by_cases other : chain.own.canonical name = name
  swap
  · exact .inr (.byname (.inl candidate) other)
  rw [getByName, Action.run_get_bind] at found
  cases made : chain.own.singletons.get? name with
  | some there =>
      rw [findByName_made _ (other.symm ▸ made)] at found
      cases found
      rcases Container.mem_candidates.1 candidate with
        ⟨b, defined, declared⟩ | ⟨bean, hbean, ofClass⟩
      · by_cases fits : bean.toValue.Fits className
        · exact .inl fits
        · exact .inr (.apart defined declared made fits)
      · obtain rfl := Option.some.inj (made.symm.trans hbean)
        exact .inl (Container.fits_of_hasClass ofClass)
  | none =>
      rcases Container.mem_candidates.1 candidate with ⟨b, defined, declared⟩ | ⟨bean, hbean, -⟩
      · rw [findByName_defined _ (other.symm ▸ made) (other.symm ▸ defined), run_realize] at found
        have gives : b.Gives bean := makeBean_gives create_makes (congrArg Prod.fst found)
        by_cases factory : className = factoryClass
        · exact .inr (.product defined declared factory)
        · exact .inl (Container.fits_of_gives gives declared factory)
      · rw [made] at hbean
        cases hbean

/-! ### By type -/

theorem mem_candidates_of_ofType {c : Container} {ty : Ty} (h : c.ofType ty = .ok name) :
    name ∈ c.candidates ty := by
  unfold Container.ofType at h
  split at h
  · cases h
  next only => cases h; rw [only]; exact List.mem_singleton_self _
  · cases h

theorem mem_of_choose {d : Dependency} {names : List String}
    (h : choose d names = .ok (some name)) : name ∈ names := by
  unfold choose at h
  split at h
  · split at h <;> cases h
  · cases h; exact List.mem_singleton_self _
  · split at h
    next named => cases h; exact named
    next => cases h

theorem resolveNamedByType_fits {found : NamedBean}
    (h : (resolveNamedByType (create depth) (.named className)).run chain = (.ok found, s)) :
    found.bean.toValue.Fits className ∨ chain.own.ofType (.named className) = .ok found.name ∧
      chain.own.Misleads className found.name := by
  rw [run_resolveNamedByType] at h
  obtain ⟨name, mid, chosen, rest⟩ := Action.ok_of_bind h
  obtain ⟨chosen, rfl⟩ := Action.ok_of_ofExcept chosen
  obtain ⟨bean, after, looked, given⟩ := Action.ok_of_bind rest
  cases given
  exact (getByName_fits (mem_candidates_of_ofType chosen) looked).imp_right
    fun misleads => ⟨chosen, misleads⟩

theorem resolveDependency_fits {d : Dependency} {requesting : String} {selection : Selection}
    (asked : d.ty = .named className)
    (h : (resolveDependency (create depth) d requesting).run chain = (.ok selection, s)) :
    selection.value.Fits className ∨ ∃ name, chain.own.chosen d requesting = .ok (some name) ∧
      selection.candidates.head? = some name ∧ chain.own.Misleads className name := by
  rw [run_resolveDependency] at h
  obtain ⟨choice, mid, chosen, rest⟩ := Action.ok_of_bind h
  obtain ⟨chosen, rfl⟩ := Action.ok_of_ofExcept chosen
  cases choice with
  | none =>
      cases rest
      exact .inl nofun
  | some name =>
      obtain ⟨bean, after, looked, given⟩ := Action.ok_of_bind rest
      have candidate := (List.mem_filter.1 (mem_of_choose chosen)).1
      rw [asked] at candidate
      cases given
      exact (getByName_fits candidate looked).imp_right fun misleads =>
        ⟨name, chosen, Ordered.head?_ofList _ _, misleads⟩

/-- A name that misleads is the bean of the class in one of the containers, as that is when it is
asked. -/
def Misled (containers : List Container) (className : String) : Prop :=
  ∃ c ∈ containers, ∃ later name, c.Reveals later ∧ later.ofType (.named className) = .ok name ∧
    c.Misleads className name

/-- Containers that have changed were misled before. -/
theorem Misled.of_reveals {containers later : List Container}
    (h : List.Forall₂ Container.Reveals containers later) (misled : Misled later className) :
    Misled containers className := by
  obtain ⟨c', hc', last, name, revealed, chosen, misleads⟩ := misled
  obtain ⟨c, hc, became⟩ := related_of_mem h hc'
  exact ⟨c, hc, last, name, trans_of Container.Reveals became revealed, chosen,
    misleads.of_reveals became⟩

theorem Misled.cons {containers : List Container} (c : Container)
    (h : Misled containers className) : Misled (c :: containers) className := by
  obtain ⟨above, hmem, misled⟩ := h
  exact ⟨above, List.mem_cons_of_mem _ hmem, misled⟩

/-- A look-up that goes on above after it has failed here does so in containers that have changed
meanwhile. -/
theorem findByType_fits {bean : Managed} : ∀ {height : Nat} {chain : Chain},
    ((findByType (create depth) height (.named className)).run chain).1 = .ok bean →
      bean.toValue.Fits className ∨ Misled (chain.own :: chain.ancestors) className
  | height, chain, h => by
      by_cases missing : ∃ missing, ((resolveNamedByType (create depth) (.named className)).run
          chain).1 = .error (.error (.noSuchBeanOfType missing))
      · obtain ⟨missing, failed⟩ := missing
        have reveals := resolveNamedByType_along Container.workAlong_reveals
          (create_along Container.workAlong_reveals depth) (.named className) chain
        cases height with
        | zero =>
            rw [findByType_missing (Prod.ext failed rfl)] at h
            cases h
        | succ height =>
            rw [findByType_above height (Prod.ext failed rfl)] at h
            cases above : ((resolveNamedByType (create depth) (.named className)).run
                chain).2.ancestors with
            | nil =>
                rw [run_inParent_nil _ _ above] at h
                cases h
            | cons up rest =>
                rw [run_inParent_cons _ _ above] at h
                exact (findByType_fits h).imp_right fun misled =>
                  (misled.of_reveals (above ▸ reveals.ancestors)).cons chain.own
      · rw [findByType_here _ fun m hm => missing ⟨m, hm⟩] at h
        rcases run : (resolveNamedByType (create depth) (.named className)).run chain with
          ⟨stop | found, after⟩
        · rw [run] at h
          cases h
        · rw [run] at h
          cases h
          refine (resolveNamedByType_fits run).imp_right fun ⟨chosen, misleads⟩ => ?_
          exact ⟨chain.own, List.mem_cons_self, chain.own, found.name, refl_of _ _, chosen, misleads⟩

theorem getByType_fits {bean : Managed}
    (h : ((getByType (create depth) (.named className)).run chain).1 = .ok bean) :
    bean.toValue.Fits className ∨ Misled (chain.own :: chain.ancestors) className := by
  rw [getByType, Action.run_get_bind] at h
  exact findByType_fits h

/-! ### References -/

section Reference

variable {r : Resolver Chain} {evaluation : Evaluation} {bean : Managed}
  (hr : r.collaborators = collaborators (create depth) evaluation)

include hr

theorem lookUpHere_fits
    (h : (r.lookUpHere ⟨.type (.named className), false⟩).run chain = (.ok bean, s)) :
    bean.toValue.Fits className ∨ ∃ name, chain.own.ofType (.named className) = .ok name ∧
      chain.own.Misleads className name := by
  obtain ⟨found, mid, hfound, rest⟩ := Action.ok_of_bind h
  obtain ⟨⟨⟩, after, -, given⟩ := Action.ok_of_bind rest
  cases given
  rw [Resolver.findHere, hr] at hfound
  exact (resolveNamedByType_fits hfound).imp_right fun misleads => ⟨found.name, misleads⟩

theorem followAbove_fits {path : ArgPath}
    (h : (r.followReference path ⟨.type (.named className), true⟩).run chain = (.ok bean, s)) :
    bean.toValue.Fits className ∨ Misled chain.ancestors className := by
  obtain ⟨parent, mid, hparent, rest⟩ := Action.ok_of_bind h
  rw [hr] at hparent
  obtain rfl : mid = chain := (congrArg Prod.snd hparent).symm
  cases parent with
  | none => cases rest
  | some parent =>
      obtain rfl : parent = parentLookups (create depth) :=
        eq_parentLookups (s := mid) (Except.ok.inj (congrArg Prod.fst hparent))
      have rest := Action.ok_of_mapError rest
      rw [Resolver.lookUpInParent] at rest
      change (inParent _ (getByType (create depth) (.named className))).run mid = _ at rest
      cases above : mid.ancestors with
      | nil =>
          rw [run_inParent_nil _ _ above] at rest
          cases rest
      | cons up others =>
          rw [run_inParent_cons _ _ above] at rest
          exact getByType_fits (congrArg Prod.fst rest)

end Reference

/-- **An object that is found by its class is of that class, unless the name that was chosen
misleads.**  This holds of the bean of the class, with its name; of the value for an injection point,
for which the chosen name is reported first; and of the value of a reference to the class, here and
to the parent, where a container above has chosen the name. -/
theorem byType_fits (depth : Nat) (chain : Chain) (className : String) :
    (∀ found s, (resolveNamedByType (create depth) (.named className)).run chain = (.ok found, s) →
      found.bean.toValue.Fits className ∨ chain.own.ofType (.named className) = .ok found.name ∧
        chain.own.Misleads className found.name) ∧
    (∀ d requesting selection s, d.ty = .named className →
      (resolveDependency (create depth) d requesting).run chain = (.ok selection, s) →
      selection.value.Fits className ∨ ∃ name, chain.own.chosen d requesting = .ok (some name) ∧
        selection.candidates.head? = some name ∧ chain.own.Misleads className name) ∧
    ∀ (r : Resolver Chain) evaluation path node v s,
      r.collaborators = collaborators (create depth) evaluation →
      (r.resolve path (.reference ⟨.type (.named className), false⟩) chain = (⟨node, .ok v⟩, s) →
        v.Fits className ∨ ∃ name, chain.own.ofType (.named className) = .ok name ∧
          chain.own.Misleads className name) ∧
      (r.resolve path (.reference ⟨.type (.named className), true⟩) chain = (⟨node, .ok v⟩, s) →
        v.Fits className ∨ Misled chain.ancestors className) := by
  refine ⟨fun found s => resolveNamedByType_fits,
    fun d requesting selection s => resolveDependency_fits,
    fun r evaluation path node v s hr => ⟨fun h => ?_, fun h => ?_⟩⟩
  · obtain ⟨bean, mid, followed, given⟩ := Action.ok_of_bind (Action.ok_of_leaving h)
    cases given
    exact lookUpHere_fits hr (Action.ok_of_mapError followed)
  · obtain ⟨bean, mid, followed, given⟩ := Action.ok_of_bind (Action.ok_of_leaving h)
    cases given
    exact followAbove_fits hr followed

/-- Classes whose one candidate has nothing that misleads: one is defined here, one above. -/
theorem byType_fits_of_plain :
    let plain : Blueprint := {
      id := 1, className := some "S", scope := .singleton, dependsOn := [], synthetic := false
      resource := none, args := [], properties := [] }
    let top := ({ id := "top" } : Container).registerSingleton "t" (.object (.external "T" "p"))
    let chain : Chain := ⟨({ id := "main" } : Container).registerBlueprint "s" plain, [top]⟩
    let r : Resolver Chain :=
      { collaborators := collaborators (create 1), bean := "owner", blueprint := plain }
    let d : Dependency := ⟨"x", .named "S", true⟩
    (∃ found s, (resolveNamedByType (create 1) (.named "S")).run chain = (.ok found, s) ∧
      found.bean.toValue.Fits "S") ∧
    (∃ selection s, (resolveDependency (create 1) d "owner").run chain = (.ok selection, s) ∧
      selection.value.Fits "S") ∧
    (∃ node v s, r.resolve (.root "x") (.reference ⟨.type (.named "S"), false⟩) chain =
      (⟨node, .ok v⟩, s) ∧ v.Fits "S") ∧
    ∃ node v s, r.resolve (.root "x") (.reference ⟨.type (.named "T"), true⟩) chain =
      (⟨node, .ok v⟩, s) ∧ v.Fits "T" := by
  intro plain top chain r d
  have hereS (name : String) : ¬ chain.own.Misleads "S" name :=
    Container.not_misleads rfl (fun _ => .inr rfl) (by decide)
  have aboveT : ∀ c ∈ chain.ancestors, ∀ name, ¬ c.Misleads "T" name :=
    List.forall_mem_singleton.2 fun _ =>
      Container.not_misleads rfl (fun _ => .inl rfl) (by decide)
  obtain ⟨byType, injected, referred⟩ := byType_fits 1 chain "S"
  obtain ⟨-, -, above⟩ := byType_fits 1 chain "T"
  refine ⟨?_, ?_, ?_, ?_⟩
  · obtain ⟨found, h⟩ := exists_ok ((resolveNamedByType (create 1) (.named "S")).run chain)
      (by decide +kernel)
    exact ⟨found, _, h, (byType found _ h).resolve_right fun ⟨_, misleads⟩ => hereS _ misleads⟩
  · obtain ⟨selection, h⟩ := exists_ok ((resolveDependency (create 1) d "owner").run chain)
      (by decide +kernel)
    exact ⟨selection, _, h, (injected d _ selection _ rfl h).resolve_right
      fun ⟨_, _, _, misleads⟩ => hereS _ misleads⟩
  · obtain ⟨node, v, h⟩ := exists_resolved
      (r.resolve (.root "x") (.reference ⟨.type (.named "S"), false⟩) chain) (by decide +kernel)
    exact ⟨node, v, _, h, ((referred r .placeholders _ _ _ _ rfl).1 h).resolve_right
      fun ⟨_, _, misleads⟩ => hereS _ misleads⟩
  · obtain ⟨node, v, h⟩ := exists_resolved
      (r.resolve (.root "x") (.reference ⟨.type (.named "T"), true⟩) chain) (by decide +kernel)
    exact ⟨node, v, _, h, ((above r .placeholders _ _ _ _ rfl).2 h).resolve_right
      fun ⟨c, hc, _, _, _, _, misleads⟩ => aboveT c hc _ misleads⟩

/-- One name is an alias for another one, one has a bean of another class beside its definition, and
one is that of a factory: what they lead to is of none of the classes that were asked for. -/
example :
    let product : Blueprint := {
      id := 1, className := some "T", scope := .singleton, dependsOn := [], synthetic := false
      resource := none, args := [], properties := [] }
    let factory : Blueprint := { product with
      id := 2, className := some "test.Factory", properties := [("product", .nested 0 product)] }
    let named := (({ id := "main" } : Container).registerSingleton "u"
      (.object (.external "U" "u"))).registerSingleton "a" (.object (.external "A" "a"))
    let replaced := ((named.registerAlias "a" "u").registerBlueprint "b"
      { product with className := some "B" }).registerSingleton "b" (.object (.external "V" "v"))
    let chain : Chain := ⟨replaced.registerBlueprint "f" factory, []⟩
    let found (className : String) :=
      ((resolveNamedByType (create 2) (.named className)).run chain).1.toOption.map fun found =>
        (found.name, found.bean.toValue.object?.map Object.typeName)
    found "A" = some ("a", some "U") ∧ found "B" = some ("b", some "V") ∧
      found "test.Factory" = some ("f", some "T") := by
  decide +kernel

end Chain

end Wiring
