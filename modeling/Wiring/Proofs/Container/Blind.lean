import Mathlib.Data.List.Forall2
import Wiring.Proofs.Container.Along
import Wiring.Proofs.Resolver.SideBySide

/-!
# Containers — the history is not read

Two containers are alike when they are the same but for their histories (`Container.Alike`), two
chains when their containers are, one by one.  A computation is blind when it has the same result
from alike chains, and ends in alike chains (`Chain.Blind`).

**Looking up and making beans is blind** (`getByName_blind`, `getByType_blind`,
`resolveNamedByType_blind`, `resolveDependency_blind`, `create_blind`), and so is every resolver of
the chain (`resolve_blind`).
-/

namespace Wiring

namespace Container

/-- The containers are the same, but for their histories. -/
def Alike (c c' : Container) : Prop :=
  ∃ history, c' = { c with history }

theorem Alike.refl (c : Container) : c.Alike c := ⟨c.history, rfl⟩

variable {c c' : Container}

theorem alike_learn (h : c.Alike c') (name : String) (left : Blueprint) :
    (c.learn name left).Alike (c'.learn name left) := by
  obtain ⟨history, rfl⟩ := h
  unfold learn
  dsimp only
  split
  · exact ⟨history, rfl⟩
  · exact ⟨history, rfl⟩

theorem alike_conclude (h : c.Alike c') (name : String) (b : Blueprint) (bean : Option Managed) :
    (c.conclude name b bean).Alike (c'.conclude name b bean) := by
  obtain ⟨history, rfl⟩ := h
  rw [conclude_eq, conclude_eq]
  exact ⟨_, rfl⟩

theorem Alike.loadType (h : c.Alike c') (name : String) : c'.loadType name = c.loadType name := by
  obtain ⟨history, rfl⟩ := h
  rw [Container.loadType, Container.loadType]

end Container

namespace Chain

open Container (Alike)

variable {α β : Type} {make : Maker} {s t : Chain}

/-- From alike chains, the computation has the same result and ends in alike chains. -/
def Blind (x : StateM Chain α) : Prop :=
  Mirrors (Each Alike) x x

/-- Making objects is blind. -/
def MakesBlind (make : Maker) : Prop :=
  ∀ name b, Blind (make name b)

theorem Each.mk_alike {own : Container} {history : List Event} {above above' : List Container}
    (h : List.Forall₂ Alike above above') :
    Each Alike ⟨own, above⟩ ⟨{ own with history }, above'⟩ :=
  ⟨⟨history, rfl⟩, h⟩

theorem blind_pure (a : α) : Blind (pure a) := Mirrors.pure a

theorem blind_bind {x : StateM Chain α} {f : α → StateM Chain β} (hx : Blind x)
    (hf : ∀ a, Blind (f a)) : Blind (x >>= f) := Mirrors.bind hx hf

theorem blind_modifyOwn {f : Container → Container}
    (h : ∀ {c c'}, Alike c c' → Alike (f c) (f c')) :
    Blind (modify (modifyOwn f) : StateM Chain Unit) :=
  fun _ _ hR => ⟨rfl, h hR.own, hR.ancestors⟩

/-- A change of what is no history is made to both containers. -/
theorem blind_modifyOwn_same {f : Container → Container}
    (h : ∀ c history, ∃ history', f { c with history } = { f c with history := history' }) :
    Blind (modify (modifyOwn f) : StateM Chain Unit) :=
  blind_modifyOwn fun {c _} ⟨history, hc⟩ => by rw [hc]; exact h c history

/-- What alike containers answer alike. -/
theorem blind_read {f : Chain → α} (h : ∀ s t, Each Alike s t → f s = f t) :
    Blind (do return f (← get) : StateM Chain α) :=
  fun s t hR => ⟨h s t hR, hR⟩

theorem inParent_blind {orElse x : Action Chain α} (ho : Blind orElse.run) (hx : Blind x.run) :
    Blind (inParent orElse x).run := by
  intro s t hR
  obtain ⟨own, above⟩ := s
  obtain ⟨own', above'⟩ := t
  obtain ⟨hown, habove⟩ := hR
  cases habove with
  | nil =>
      have run := ho _ _ (⟨hown, .nil⟩ : Each Alike ⟨own, []⟩ ⟨own', []⟩)
      exact ⟨run.result, run.state⟩
  | cons hup hrest =>
      have run := hx _ _ (⟨hup, hrest⟩ : Each Alike ⟨_, _⟩ ⟨_, _⟩)
      exact ⟨run.result, hown, .cons run.state.own run.state.ancestors⟩

theorem unwrapProduct_blind (factory : Value) (name : String) (postProcess : Bool) :
    Blind (unwrapProduct factory name postProcess).run := by
  refine Action.mirrors_bind (Action.mirrors_lift (x := modify _) (y := modify _)
    (blind_modifyOwn_same fun c history => ⟨history, rfl⟩)) fun _ => ?_
  split
  · exact Action.mirrors_throw _
  · exact Action.mirrors_pure _
  · exact Action.mirrors_pure _

/-! ### Look-ups -/

theorem makeDefined_blind (hm : MakesBlind make) (name : String) (b : Blueprint) :
    Blind (makeDefined make name b).run :=
  blind_bind (hm name b) fun made =>
    blind_bind (blind_modifyOwn fun h => Container.alike_learn h name made.node) fun _ =>
      blind_pure _

theorem makeBean_blind (hm : MakesBlind make) (name : String) (b : Blueprint) :
    Blind (makeBean make name b).run := by
  refine Action.mirrors_bind (makeDefined_blind hm name b) fun made => ?_
  cases made with
  | factory factory => exact unwrapProduct_blind factory name true
  | value v => exact Action.mirrors_pure _
  | null => exact Action.mirrors_pure _

theorem realize_blind (hm : MakesBlind make) (name : String) (b : Blueprint) :
    Blind (realize make name b).run := by
  refine blind_bind (blind_modifyOwn_same fun c history => ⟨_, rfl⟩) fun _ => ?_
  refine blind_bind (makeBean_blind hm name b) fun outcome => ?_
  exact blind_bind (blind_modifyOwn fun h => Container.alike_conclude h name b outcome.toOption)
    fun _ => blind_pure outcome

theorem findByName_blind (hm : MakesBlind make) :
    ∀ (height : Nat) (name : String), Blind (findByName make height name).run
  | height, name => by
      intro s t hR
      obtain ⟨own, above⟩ := s
      obtain ⟨own', above'⟩ := t
      obtain ⟨⟨history, rfl⟩, habove⟩ := hR
      have hR : Each Alike ⟨own, above⟩ ⟨{ own with history }, above'⟩ := .mk_alike habove
      cases made : own.singletons.get? (own.canonical name) with
      | some bean =>
          exact .of_runs (findByName_made height made) (findByName_made height made) rfl
            (.mk_alike habove)
      | none =>
          cases defined : own.definitions.get? (own.canonical name) with
          | some b =>
              have run := realize_blind hm (own.canonical name) b _ _ hR
              exact .of_runs (findByName_defined height made defined)
                (findByName_defined height made defined) run.result run.state
          | none =>
              match height with
              | 0 =>
                  exact .of_runs (findByName_absent made defined) (findByName_absent made defined)
                    rfl hR
              | height + 1 =>
                  have run := inParent_blind
                    (Action.mirrors_throw (.error (.noSuchBean (own.canonical name))))
                    (findByName_blind hm height (own.canonical name)) _ _ hR
                  exact .of_runs (findByName_above height made defined)
                    (findByName_above height made defined) run.result run.state

theorem getByName_blind (hm : MakesBlind make) (name : String) :
    Blind (getByName make name).run :=
  Action.mirrors_get_bind fun s t hR => by
    rw [hR.ancestors.length_eq]
    exact findByName_blind hm _ name s t hR

/-- Alike containers have the same candidates. -/
theorem candidates_of_alike {c c' : Container} (h : c.Alike c') (ty : Ty) :
    c.candidates ty = c'.candidates ty := by
  obtain ⟨history, rfl⟩ := h
  rfl

theorem resolveNamedByType_blind (hm : MakesBlind make) (ty : Ty) :
    Blind (resolveNamedByType make ty).run :=
  Action.mirrors_get_bind fun s t hR => by
    rw [candidates_of_alike hR.own ty]
    split
    · exact Action.mirrors_throw _ s t hR
    · exact Action.mirrors_bind (getByName_blind hm _) (fun _ => Action.mirrors_pure _) s t hR
    · exact Action.mirrors_throw _ s t hR

theorem findByType_blind (hm : MakesBlind make) :
    ∀ (height : Nat) (ty : Ty), Blind (findByType make height ty).run
  | height, ty => by
      intro s t hR
      have here := resolveNamedByType_blind hm ty s t hR
      by_cases h : ∃ missing, ((resolveNamedByType make ty).run s).1 =
          .error (.error (.noSuchBeanOfType missing))
      · obtain ⟨missing, h⟩ := h
        have h' := here.result.symm.trans h
        match height with
        | 0 =>
            exact .of_runs (findByType_missing (Prod.ext h rfl))
              (findByType_missing (Prod.ext h' rfl)) rfl here.state
        | height + 1 =>
            have run := inParent_blind (Action.mirrors_throw (.error (.noSuchBeanOfType missing)))
              (findByType_blind hm height ty) _ _ here.state
            exact .of_runs (findByType_above height (Prod.ext h rfl))
              (findByType_above height (Prod.ext h' rfl)) run.result run.state
      · have settled : ∀ missing, ((resolveNamedByType make ty).run s).1 ≠
            .error (.error (.noSuchBeanOfType missing)) := fun missing hs => h ⟨missing, hs⟩
        exact .of_runs (findByType_here height settled) (findByType_here height fun missing ht =>
          settled missing (here.result.trans ht)) (congrArg (Except.map NamedBean.bean) here.result)
          here.state

theorem getByType_blind (hm : MakesBlind make) (ty : Ty) : Blind (getByType make ty).run :=
  Action.mirrors_get_bind fun s t hR => by
    rw [hR.ancestors.length_eq]
    exact findByType_blind hm _ ty s t hR

theorem resolveDependency_blind (hm : MakesBlind make) (d : Dependency) (requesting : String) :
    Blind (resolveDependency make d requesting).run :=
  Action.mirrors_get_bind fun s t hR => by
    rw [candidates_of_alike hR.own d.ty]
    refine Action.mirrors_bind (Action.mirrors_ofExcept _) (fun chosen => ?_) s t hR
    cases chosen with
    | none => exact Action.mirrors_pure _
    | some name =>
        refine Action.mirrors_bind (getByName_blind hm name) fun bean => ?_
        refine Action.mirrors_get_bind fun s t hR => ?_
        obtain ⟨history, hown⟩ := hR.own
        rw [hown]
        exact Action.mirrors_pure _ s t hR

/-! ### Resolvers of the chain -/

theorem containsIn_of_alike : ∀ {above above' : List Container} {c c' : Container} (name : String),
    c.Alike c' → List.Forall₂ Alike above above' →
      containsIn c above name = containsIn c' above' name
  | [], _, _, _, _, ⟨_, rfl⟩, .nil => rfl
  | _ :: _, _, c, _, name, ⟨_, rfl⟩, .cons hup hrest =>
      congrArg (c.holds (c.canonical name) || ·)
        (containsIn_of_alike (c.canonical name) hup hrest)

theorem containsAbove_of_alike (h : Each Alike s t) (name : String) :
    s.containsAbove name = t.containsAbove name := by
  obtain ⟨own, above⟩ := s
  obtain ⟨own', above'⟩ := t
  cases h.ancestors with
  | nil => rfl
  | cons hup hrest => exact containsIn_of_alike name hup hrest

theorem isNameInUse_blind (name : String) : Blind (isNameInUse name) := by
  intro s t hR
  obtain ⟨own, above⟩ := s
  obtain ⟨own', above'⟩ := t
  obtain ⟨⟨history, rfl⟩, habove⟩ := hR
  cases busy : own.isNameInUse name with
  | true =>
      exact .of_runs (run_isNameInUse_busy busy) (run_isNameInUse_busy busy) rfl (.mk_alike habove)
  | false =>
      exact .of_runs (run_isNameInUse_free busy) (run_isNameInUse_free busy) rfl (.mk_alike habove)

theorem parentLookups_blind (hm : MakesBlind make) :
    (parentLookups make).Mirrors (Each Alike) (parentLookups make) where
  containsBean name := blind_read fun _ _ hR => containsAbove_of_alike hR name
  getByName name := inParent_blind (Action.mirrors_throw _) (getByName_blind hm name)
  getByType ty := inParent_blind (Action.mirrors_throw _) (getByType_blind hm ty)

/-- The chain as a collaborator answers the same when it is alike. -/
theorem collaborators_blind (hm : MakesBlind make) (evaluation : Evaluation) :
    (collaborators make evaluation).Mirrors (Each Alike) (collaborators make evaluation) where
  containsBean name := blind_read fun _ _ hR => containsIn_of_alike name hR.own hR.ancestors
  getByName := getByName_blind hm
  getByType := getByType_blind hm
  parent {s t} hR := by
    refine ⟨?_, hR⟩
    obtain ⟨own, above⟩ := s
    obtain ⟨own', above'⟩ := t
    cases hR.ancestors with
    | nil => exact .none
    | cons _ _ => exact .some (parentLookups_blind hm)
  resolveNamedByType := resolveNamedByType_blind hm
  resolveDependency := resolveDependency_blind hm
  registerDependent a b := blind_modifyOwn_same fun c history => ⟨history, rfl⟩
  registerContained a b := blind_modifyOwn_same fun c history => ⟨history, rfl⟩
  isNameInUse := isNameInUse_blind
  namesInUse {s t} hR := by
    obtain ⟨history, hown⟩ := hR.own
    change s.own.namesInUse = t.own.namesInUse
    rw [hown]
    rfl
  mergeBlueprint _ _ _ := Action.mirrors_ofExcept _
  createObject name b := blind_bind (hm name b) fun made => blind_pure made.outcome
  unwrapProduct := unwrapProduct_blind
  loadType name := Action.mirrors_get_bind fun s t hR => by
    rw [hR.own.loadType name]
    exact Action.mirrors_ofExcept _ s t hR
  evaluate text _ := Action.mirrors_get_bind fun s t hR => by
    obtain ⟨history, hown⟩ := hR.own
    rw [hown]
    exact Action.mirrors_ofExcept _ s t hR
  coerce _ _ := Action.mirrors_ofExcept _

variable {evaluation : Evaluation} {r : Resolver Chain}

/-- **Every resolver of the chain is blind.** -/
theorem resolve_blind (hm : MakesBlind make) (hr : r.collaborators = collaborators make evaluation)
    (path : ArgPath) (raw : Raw) : Blind (r.resolve path raw) :=
  Resolver.resolve_mirrors (hr ▸ collaborators_blind hm evaluation) path raw

/-! ### Making objects -/

theorem resolveArgs_blind (hm : MakesBlind make)
    (hr : r.collaborators = collaborators make evaluation) :
    ∀ (i : Nat) (raws : List Raw), Blind (resolveArgs r i raws)
  | _, [] => blind_pure _
  | i, raw :: raws => by
      rw [resolveArgs]
      refine blind_bind (resolve_blind hm hr _ raw) fun first => ?_
      cases first.outcome with
      | error stop => exact blind_pure _
      | ok v => exact blind_bind (resolveArgs_blind hm hr (i + 1) raws) fun _ => blind_pure _

theorem resolveProperties_blind (hm : MakesBlind make)
    (hr : r.collaborators = collaborators make evaluation) :
    ∀ ps : List (String × Raw), Blind (resolveProperties r ps)
  | [] => blind_pure _
  | (name, raw) :: ps => by
      rw [resolveProperties]
      refine blind_bind (resolve_blind hm hr _ raw) fun first => ?_
      cases first.outcome with
      | error stop => exact blind_pure _
      | ok v => exact blind_bind (resolveProperties_blind hm hr ps) fun _ => blind_pure _

theorem newObject_blind (name className : String) (args : List Value)
    (properties : List (String × Value)) : Blind (newObject name className args properties) := by
  intro s t hR
  obtain ⟨own, above⟩ := s
  obtain ⟨own', above'⟩ := t
  obtain ⟨⟨history, rfl⟩, habove⟩ := hR
  exact ⟨rfl, .mk_alike habove⟩

theorem instantiate_blind (hm : MakesBlind make) (name : String) (b : Blueprint) :
    Blind (instantiate (collaborators make) name b) := by
  refine blind_bind (resolveArgs_blind hm rfl 0 b.args) fun args => ?_
  cases args.outcome with
  | error stop => exact blind_pure _
  | ok argValues =>
      refine blind_bind (resolveProperties_blind hm rfl b.properties) fun properties => ?_
      cases properties.outcome with
      | error stop => exact blind_pure _
      | ok values => exact blind_bind (newObject_blind _ _ _ _) fun _ => blind_pure _

theorem build_blind (hm : MakesBlind make) (name : String) (b : Blueprint) :
    Blind (build make name b) := by
  refine blind_bind (blind_modifyOwn_same fun c history => ⟨history, rfl⟩) fun _ => ?_
  dsimp only
  split
  · exact blind_pure _
  · refine blind_bind (instantiate_blind hm name b) fun built => ?_
    cases built.outcome with
    | error stop => exact blind_pure _
    | ok v =>
        exact blind_bind (blind_modifyOwn_same fun c history => ⟨_, rfl⟩) fun _ => blind_pure _

/-- **Making objects is blind**, however deep it goes. -/
theorem create_blind : ∀ depth, MakesBlind (create depth)
  | 0 => fun _ _ => blind_pure _
  | depth + 1 => fun name b => build_blind (create_blind depth) name b

end Chain

end Wiring
