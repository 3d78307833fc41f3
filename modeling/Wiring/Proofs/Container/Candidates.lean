import Wiring.Proofs.Container.Growth

/-!
# Containers — the candidates of a type

A name is a candidate of a type for its definition, which declares the class, or for its bean, which
is an object of the class (`mem_candidates`).  While beans are looked up and made no candidate is
lost: definitions keep their classes, and beans stay.

**A look-up adds the names whose beans it makes and which show a class that their definition does
not declare** (`getByName_candidates`): the product of a factory, and an object of a definition
without a class.  With no such bean made, the look-ups by type and the injection points choose as
before; with one, they may choose otherwise (`product_becomes_candidate`).
-/

namespace Wiring

/-- The bean made of the blueprint may be of the class although the blueprint does not declare
it. -/
def BlueprintOf.Conceals (b : Blueprint) (className : String) : Prop :=
  b.className = some Chain.factoryClass ∨ b.className = none ∧ className = "object"

namespace Container

/-- While beans are looked up and made, each new bean is one that its definition gives. -/
structure Reveals (c c' : Container) : Prop extends Grows c c' where
  gives {name : String} {bean : Managed} (h : c'.singletons.get? name = some bean)
    (absent : c.singletons.get? name = none) :
    ∃ b, c.definitions.get? name = some b ∧ b.isSingleton ∧ b.Gives bean

/-- The name has become one of a bean of the type, of which its definition does not speak. -/
def Surfaces (c c' : Container) (ty : Ty) (name : String) : Prop :=
  ∃ className bean b, ty = .named className ∧ c.singletons.get? name = none ∧
    c'.singletons.get? name = some bean ∧ hasClass className bean ∧
    c.definitions.get? name = some b ∧ b.isSingleton ∧ b.Conceals className

/-- The name a look-up of the type leads to. -/
def ofType (c : Container) (ty : Ty) : Except Error String :=
  match c.candidates ty with
  | [] => .error (.noSuchBeanOfType ty)
  | [name] => .ok name
  | names => .error (.noUniqueBean ty names)

/-- The name chosen for an injection point of the named bean. -/
def chosen (c : Container) (d : Dependency) (requesting : String) : Except Error (Option String) :=
  Chain.choose d ((c.candidates d.ty).filter fun name => name != requesting)

variable {a b c c' : Container}

/-! ### Candidates -/

theorem mem_names_foldl_insert {name : String} : ∀ (names : List String) (t : Table Unit),
    name ∈ (names.foldl (fun (t : Table Unit) name => t.insert name ()) t).names ↔
      name ∈ names ∨ name ∈ t.names
  | [], t => by simp
  | first :: names, t => by
      rw [List.foldl_cons, mem_names_foldl_insert names, Table.mem_names_insert, List.mem_cons]
      tauto

/-- **A name is a candidate of a type for its definition or for its bean.** -/
theorem mem_candidates {className name : String} :
    name ∈ c.candidates (.named className) ↔
      (∃ b, c.definitions.get? name = some b ∧ b.className = some className) ∨
        ∃ bean, c.singletons.get? name = some bean ∧ hasClass className bean := by
  have hfind : ∀ {α : Type} (t : Table α) (p : α → Bool),
      name ∈ (t.entries.filter fun e => p e.2).map Prod.fst ↔
        ∃ x, t.get? name = some x ∧ p x := by
    intro α t p
    rw [List.mem_map]
    constructor
    · rintro ⟨⟨key, x⟩, he, rfl⟩
      obtain ⟨hx, hp⟩ := List.mem_filter.1 he
      exact ⟨x, Table.mem_entries.1 hx, hp⟩
    · rintro ⟨x, hx, hp⟩
      exact ⟨(name, x), List.mem_filter.2 ⟨Table.mem_entries.2 hx, hp⟩, rfl⟩
  rw [candidates, mem_names_foldl_insert, List.mem_append,
    hfind c.definitions (fun b => b.className == some className), hfind c.singletons]
  simp [Table.names, Table.empty]

/-- Candidates are listed in the order of their names, so those of two containers are the same when
they have the same members. -/
theorem candidates_eq {ty : Ty} (h : ∀ name, name ∈ a.candidates ty ↔ name ∈ b.candidates ty) :
    a.candidates ty = b.candidates ty := by
  cases ty with
  | named className => exact congrArg Table.names (Table.ext_names h)
  | _ => rfl

/-! ### What is revealed -/

/-- Of a bean that shows a class its definition gives, the definition declares the class or conceals
it. -/
theorem declares_or_conceals {b : Blueprint} {bean : Managed} {className : String}
    (h : b.Gives bean) (hclass : hasClass className bean) :
    b.className = some className ∨ b.Conceals className := by
  rcases h with factory | ⟨o, ho, rfl⟩
  · exact .inr (.inl factory)
  · unfold Chain.manage at hclass
    split at hclass
    · cases hclass
    · split at hclass
      · cases hclass
      · have hname : o.typeName = className := eq_of_beq hclass
        rw [ho] at hname
        cases hdeclared : b.className with
        | none => rw [hdeclared] at hname; exact .inr (.inr ⟨hdeclared, hname.symm⟩)
        | some declared => rw [hdeclared] at hname; exact .inl (congrArg some hname)

theorem gives_of_grows {b b' : Blueprint} {bean : Managed} (h : b.Grows b')
    (hgives : b'.Gives bean) : b.Gives bean := by
  rw [BlueprintOf.Gives, BlueprintOf.Makes, h.className] at hgives
  exact hgives

namespace Reveals

theorem refl (c : Container) : c.Reveals c where
  toGrows := .refl c
  gives h absent := by rw [absent] at h; cases h

theorem trans (h : a.Reveals b) (h' : b.Reveals c) : a.Reveals c where
  toGrows := h.toGrows.trans h'.toGrows
  gives {name bean} hbean absent := by
    cases hmid : b.singletons.get? name with
    | some mid =>
        obtain rfl : mid = bean := Option.some.inj ((h'.retained hmid).symm.trans hbean)
        exact h.gives hmid absent
    | none =>
        obtain ⟨later, hlater, hs, hgives⟩ := h'.gives hbean hmid
        obtain ⟨origin, horigin, hgrows⟩ := h.exists_definition hlater
        exact ⟨origin, horigin, hgrows.isSingleton ▸ hs, gives_of_grows hgrows hgives⟩

instance : IsPreorder Container Reveals where
  refl := Reveals.refl
  trans _ _ _ := Reveals.trans

/-- Growth that adds no bean. -/
theorem of_grows (h : a.Grows b) (singletons : b.singletons = a.singletons) : a.Reveals b where
  toGrows := h
  gives hbean absent := by rw [singletons, absent] at hbean; cases hbean

end Reveals

theorem reveals_conclude {name : String} {b : Blueprint} {bean : Option Managed}
    (h : (c.note (.began name)).Reveals c') (absent : c.singletons.get? name = none)
    (defined : c.definitions.get? name = some b) (gives : ∀ m ∈ bean, b.Gives m) :
    c.Reveals (c'.conclude name b bean) where
  toGrows := grows_conclude h.toGrows absent defined
  gives {other made} hmade habsent := by
    rcases singletons_conclude hmade with hbefore | ⟨rfl, hs, rfl⟩
    · exact h.gives hbefore habsent
    · exact ⟨b, defined, hs, gives made rfl⟩

theorem workAlong_reveals : WorkAlong Reveals where
  registerDependent c a b := .of_grows (grows_registerDependent c a b) rfl
  registerContained c inner owner := .of_grows (grows_registerContained c inner owner) rfl
  claim c name owner free := .of_grows (workAlong_grows.claim c name owner free) rfl
  begin c creation := .of_grows (workAlong_grows.begin c creation) rfl
  newObject c n := .of_grows (workAlong_grows.newObject c n) rfl
  unwrap c entry h := .of_grows (workAlong_grows.unwrap c entry h) rfl
  learn c name left := .of_grows (grows_learn c name left) (by rw [learn_eq])
  found c _ _ _ := .of_grows (grows_note c _) rfl
  conclude h absent defined gives := reveals_conclude h absent defined gives
  made {_ _ _ _ _ _ _ c} _ noted := noted ▸ .of_grows (grows_note c _) rfl

/-! ### The candidates after a work -/

/-- A definition declares the class it declared. -/
theorem declared_iff {d d' : Option Blueprint} (h : Option.Rel BlueprintOf.Grows d d')
    (className : String) :
    (∃ b, d' = some b ∧ b.className = some className) ↔
      ∃ b, d = some b ∧ b.className = some className := by
  cases h with
  | none => rfl
  | some hgrows => simp [hgrows.className]

/-- **Each new candidate is one that has surfaced**, and none is lost. -/
theorem candidates_of_reveals (h : c.Reveals c') (ty : Ty) (name : String) :
    name ∈ c'.candidates ty ↔ name ∈ c.candidates ty ∨ c.Surfaces c' ty name := by
  cases ty with
  | named className =>
      rw [mem_candidates, mem_candidates, declared_iff (h.definitions name)]
      constructor
      · rintro (hdeclared | ⟨bean, hbean, hclass⟩)
        · exact .inl (.inl hdeclared)
        · cases absent : c.singletons.get? name with
          | some before =>
              obtain rfl : before = bean := Option.some.inj ((h.retained absent).symm.trans hbean)
              exact .inl (.inr ⟨before, rfl, hclass⟩)
          | none =>
              obtain ⟨b, hb, hs, hgives⟩ := h.gives hbean absent
              rcases declares_or_conceals hgives hclass with hdeclares | hconceals
              · exact .inl (.inl ⟨b, hb, hdeclares⟩)
              · exact .inr ⟨className, bean, b, rfl, absent, hbean, hclass, hb, hs, hconceals⟩
      · rintro ((hdeclared | ⟨bean, hbean, hclass⟩) | hsurfaces)
        · exact .inl hdeclared
        · exact .inr ⟨bean, h.retained hbean, hclass⟩
        · obtain ⟨_, bean, _, heq, -, hbean, hclass, -⟩ := hsurfaces
          cases heq
          exact .inr ⟨bean, hbean, hclass⟩
  | _ => exact ⟨.inl, fun h => h.elim (fun hmem => hmem) fun ⟨_, _, _, heq, _⟩ => nomatch heq⟩

/-- Where no name surfaces, the candidates are the same. -/
theorem candidates_of_hidden {ty : Ty} (h : c.Reveals c')
    (hidden : ∀ name, ¬ c.Surfaces c' ty name) : c'.candidates ty = c.candidates ty :=
  candidates_eq fun name =>
    (candidates_of_reveals h ty name).trans ⟨fun hmem => hmem.resolve_right (hidden name), .inl⟩

end Container

namespace Chain

variable {make : Maker}

/-- A look-up by type is one by the name of the only candidate. -/
theorem run_resolveNamedByType (ty : Ty) (chain : Chain) :
    (resolveNamedByType make ty).run chain =
      (do
        let name ← Action.ofExcept (chain.own.ofType ty)
        return ⟨name, ← getByName make name⟩ : Action Chain NamedBean).run chain := by
  rw [resolveNamedByType, Action.run_get_bind, Container.ofType]
  match chain.own.candidates ty with
  | [] => rfl
  | [name] => rfl
  | _ :: _ :: _ => rfl

/-- For an injection point the chosen name is looked up. -/
theorem run_resolveDependency (d : Dependency) (requesting : String) (chain : Chain) :
    (resolveDependency make d requesting).run chain =
      (do
        match ← Action.ofExcept (chain.own.chosen d requesting) with
        | none => return ⟨.null, []⟩
        | some name =>
          let bean ← getByName make name
          return ⟨bean.toValue, Ordered.ofList (name :: (← get).own.staleCandidates)⟩ :
        Action Chain Selection).run chain := by
  unfold resolveDependency Container.chosen
  exact Action.run_get_bind _ chain

/-- **A look-up by name adds to the candidates of a type the names that surface, and no others**, in
every container of the chain, whether there is a bean or not.  Where none surfaces, a look-up by the
type leads to the same name as before, and so does an injection point, or they fail with the same
error. -/
theorem getByName_candidates (depth : Nat) (name : String) (chain : Chain) :
    Each (fun c c' =>
      (∀ ty other, other ∈ c'.candidates ty ↔ other ∈ c.candidates ty ∨ c.Surfaces c' ty other) ∧
      ∀ ty, (∀ other, ¬ c.Surfaces c' ty other) →
        c'.candidates ty = c.candidates ty ∧ c'.ofType ty = c.ofType ty ∧
          ∀ d requesting, d.ty = ty → c'.chosen d requesting = c.chosen d requesting)
      chain ((getByName (create depth) name).run chain).2 ∧
    (∀ ty (s : Chain), (resolveNamedByType (create depth) ty).run s =
      (do
        let name ← Action.ofExcept (s.own.ofType ty)
        return ⟨name, ← getByName (create depth) name⟩ : Action Chain NamedBean).run s) ∧
    ∀ d requesting (s : Chain), (resolveDependency (create depth) d requesting).run s =
      (do
        match ← Action.ofExcept (s.own.chosen d requesting) with
        | none => return ⟨.null, []⟩
        | some name =>
          let bean ← getByName (create depth) name
          return ⟨bean.toValue, Ordered.ofList (name :: (← get).own.staleCandidates)⟩ :
        Action Chain Selection).run s := by
  have hreveals := getByName_along Container.workAlong_reveals
    (create_along Container.workAlong_reveals depth) name chain
  refine ⟨hreveals.imp fun h => ⟨Container.candidates_of_reveals h, fun ty hidden => ?_⟩,
    run_resolveNamedByType, run_resolveDependency⟩
  have hsame := Container.candidates_of_hidden h hidden
  refine ⟨hsame, ?_, ?_⟩
  · rw [Container.ofType, hsame, Container.ofType]
  · rintro d requesting rfl
    rw [Container.chosen, hsame, Container.chosen]

/-- Making a plain bean surfaces nothing, and so the injection point that asks for its class finds
what it found. -/
theorem getByName_candidates_of_plain :
    let plain : Blueprint := {
      id := 1, className := some "S", scope := .singleton, dependsOn := [], synthetic := false
      resource := none, args := [], properties := [] }
    let factory : Blueprint := { plain with
      id := 2, className := some "test.Factory", properties := [("product", .nested 0 plain)] }
    let own := ({ id := "main" : Container }.registerBlueprint "s" plain).registerBlueprint "f"
      factory
    let after := ((getByName (create 2) "s").run ⟨own, []⟩).2.own
    let d : Dependency := ⟨"x", .named "S", true⟩
    (∀ other, ¬ own.Surfaces after (.named "S") other) ∧ after.singletons.contains "s" ∧
      after.candidates (.named "S") = own.candidates (.named "S") ∧
      after.ofType (.named "S") = own.ofType (.named "S") ∧
      after.chosen d "c" = own.chosen d "c" := by
  intro plain factory own after d
  have hidden : ∀ other, ¬ own.Surfaces after (.named "S") other := by
    rintro other ⟨_, bean, b, heq, -, hbean, -, hb, -, hconceals⟩
    cases heq
    rw [show own.definitions = (Table.empty.insert "s" plain).insert "f" factory from rfl,
      Table.get?_insert, Table.get?_insert] at hb
    -- only the factory conceals a class, and it has no bean
    split at hb
    next hf =>
      have none : after.singletons.contains "f" = false := by decide +kernel
      rw [Table.contains, ← hf, hbean] at none
      cases none
    next =>
      split at hb
      · cases hb
        rcases hconceals with hfactory | ⟨hnone, -⟩
        · have hname : "S" = factoryClass := Option.some.inj hfactory
          exact absurd hname (by decide)
        · cases hnone
      · cases hb
  have hmain := ((getByName_candidates 2 "s" ⟨own, []⟩).1.own.2 (.named "S") hidden)
  exact ⟨hidden, by decide +kernel, hmain.1, hmain.2.1, hmain.2.2 d "c" rfl⟩

/-- A look-up of the factory's name makes it a candidate of the class of its product. -/
theorem product_becomes_candidate :
    let product : Blueprint := {
      id := 1, className := some "T", scope := .singleton, dependsOn := [], synthetic := false
      resource := none, args := [], properties := [] }
    let factory : Blueprint := { product with
      id := 2, className := some "test.Factory", properties := [("product", .nested 0 product)] }
    let chain : Chain := ⟨{ id := "main" : Container }.registerBlueprint "f" factory, []⟩
    let found := (getByName (create 2) "f").run chain
    found.1.toOption.isSome ∧
      chain.own.candidates (.named "T") = [] ∧ found.2.own.candidates (.named "T") = ["f"] ∧
      chain.own.ofType (.named "T") = .error (.noSuchBeanOfType (.named "T")) ∧
      found.2.own.ofType (.named "T") = .ok "f" := by
  intro product factory chain found
  have before : chain.own.candidates (.named "T") = [] := by decide +kernel
  have after : found.2.own.candidates (.named "T") = ["f"] := by decide +kernel
  refine ⟨by decide +kernel, before, after, ?_, ?_⟩
  · rw [Container.ofType, before]
  · rw [Container.ofType, after]

end Chain

end Wiring
