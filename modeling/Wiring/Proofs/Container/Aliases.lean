import Wiring.Proofs.Action.Raises
import Wiring.Proofs.Container.Ends
import Wiring.Proofs.Container.Wires

/-!
# Containers — aliases

A container asks for a name by giving it the one it stands for there (`Container.canonical`), once:
whether a name is known, the bean of a name, and the edges recorded for a name are those of the name
it stands for.  So names that stand for the same name are used alike (`containsBean_congr`,
`getByName_congr`, `referAlike_here`, `referAlike_above`).

**An alias is used like the name it stands for, unless that one is an alias for yet another name**
(`alias_used_like_name`).  An alias of an alias stands for that alias, which is looked for as it is
and not as the name it stands for in turn (`alias_of_alias`).
-/

namespace Wiring

variable {c : Container} {a n : String}

namespace Container

theorem canonical_alias (byname : c.aliases.get? a = some n) : c.canonical a = n := by
  rw [canonical, byname, Option.getD_some]

/-- Edges are recorded for the name that is stood for. -/
theorem registerDependent_congr (same : c.canonical a = c.canonical n) (dependent : String) :
    c.registerDependent a dependent = c.registerDependent n dependent := by
  rw [registerDependent, same, registerDependent]

end Container

namespace Resolver

variable {σ : Type} {r : Resolver σ} {path : ArgPath} {s : σ}

/-- What a reference comes to when the look-up it asks for comes to the outcome. -/
def referred (r : Resolver σ) (path : ArgPath) (ref : Reference) :
    Except Stop Managed → Except Stop Value
  | .ok bean => .ok bean.toValue
  | .error (.error e) => .error (.error (r.referenceError path ref e))
  | .error .exhausted => .error .exhausted

/-- From the state, both references come to what one look-up comes to and leave the same state
behind; of the look-up `found` holds. -/
def ReferAlike (r : Resolver σ) (path : ArgPath) (ref ref' : Reference) (s : σ)
    (found : Except Stop Managed × σ → Prop) : Prop :=
  ∃ run, found run ∧
    r.resolve path (.reference ref) s = (⟨.reference ref, r.referred path ref run.1⟩, run.2) ∧
    r.resolve path (.reference ref') s = (⟨.reference ref', r.referred path ref' run.1⟩, run.2)

/-- A reference comes to what the look-up it asks for comes to. -/
theorem resolve_reference {ref : Reference} {look : Action σ Managed}
    (follow : (r.followReference path ref).run s =
      (look.mapError (r.referenceError path ref)).run s) :
    r.resolve path (.reference ref) s =
      (⟨.reference ref, r.referred path ref (look.run s).1⟩, (look.run s).2) := by
  change (r.resolveReference path ref).leaving (Raw.reference ref) s = _
  rw [Action.leaving_run, resolveReference, Action.run_bind, follow, Action.run_mapError]
  rcases look.run s with ⟨(_ | _) | _, _⟩ <;> rfl

end Resolver

namespace Chain

variable {make : Maker} {depth : Nat} {chain : Chain}

/-- A name is known when the one it stands for is. -/
theorem containsBean_congr (same : chain.own.canonical a = chain.own.canonical n) :
    chain.containsBean a = chain.containsBean n := by
  rw [containsBean, containsBean]
  cases chain.ancestors with
  | nil => rw [containsIn, containsIn, same]
  | cons up rest => rw [containsIn, containsIn, same]

/-- Names that stand for the same name are looked up alike. -/
theorem findByName_congr (height : Nat) (same : chain.own.canonical a = chain.own.canonical n) :
    (findByName make height a).run chain = (findByName make height n).run chain := by
  cases made : chain.own.singletons.get? (chain.own.canonical n) with
  | some bean =>
      rw [findByName_made height (same ▸ made), findByName_made height made]
      simp only [modifyOwn, same]
  | none =>
      cases defined : chain.own.definitions.get? (chain.own.canonical n) with
      | some b =>
          rw [findByName_defined height (same ▸ made) (same ▸ defined),
            findByName_defined height made defined, same]
      | none =>
          cases height with
          | zero =>
              rw [findByName_absent (same ▸ made) (same ▸ defined), findByName_absent made defined,
                same]
          | succ height =>
              rw [findByName_above height (same ▸ made) (same ▸ defined),
                findByName_above height made defined, same]

theorem getByName_congr (same : chain.own.canonical a = chain.own.canonical n) :
    (getByName make a).run chain = (getByName make n).run chain := by
  rw [getByName, Action.run_get_bind, getByName, Action.run_get_bind, findByName_congr _ same]

/-! ### References -/

section Reference

variable {r : Resolver Chain} {evaluation : Evaluation} {path : ArgPath} {text name : String}

/-- A reference to a name leads to the bean of the name its text is evaluated to, and records it. -/
theorem run_lookUpHere_name (hr : r.collaborators = collaborators make evaluation)
    (evaluated : (r.evaluateName text).run chain = (.ok name, chain)) :
    (r.lookUpHere ⟨.name text, false⟩).run chain =
      (do
        let bean ← getByName make name
        modify (modifyOwn fun c => c.registerDependent name r.bean)
        return bean : Action Chain Managed).run chain := by
  have found : ((collaborators make evaluation).getByName name).run chain =
      (getByName make name).run chain := rfl
  rw [Resolver.lookUpHere, Action.run_bind, Resolver.findHere, Action.run_bind, evaluated]
  dsimp only
  rw [Action.run_bind, Action.run_bind, hr, found]
  rcases (getByName make name).run chain with ⟨stop | bean, s⟩ <;> rfl

/-- A reference to a name above leads to the bean that the containers above have of it. -/
theorem run_lookUpInParent_name (evaluated : (r.evaluateName text).run chain = (.ok name, chain)) :
    (r.lookUpInParent (parentLookups make) ⟨.name text, true⟩).run chain =
      (inParent (Action.fail (.noSuchBean name)) (getByName make name)).run chain := by
  rw [Resolver.lookUpInParent, Action.run_bind, evaluated]
  rfl

/-- The edge of a name is recorded for what the name stood for before its bean was looked up. -/
theorem edge_of_run (depth : Nat) {bean : Managed} {s : Chain} (dependent : String)
    (found : (getByName (create depth) name).run chain = (.ok bean, s)) :
    (s.own.registerDependent name dependent).dependents.contains (chain.own.canonical name)
      dependent := by
  have grown := (getByName_along Container.workAlong_grows
    (create_along Container.workAlong_grows depth) name).of_run found
  have edge := needs_registerDependent s.own name dependent
  rwa [grown.own.canonical] at edge

/-- References to names that stand for the same name come to the same, and record it as needed. -/
theorem referAlike_here (depth : Nat) (path : ArgPath) {textₐ textₙ : String}
    (hr : r.collaborators = collaborators (create depth) evaluation)
    (same : chain.own.canonical a = chain.own.canonical n)
    (evaluatedₐ : (r.evaluateName textₐ).run chain = (.ok a, chain))
    (evaluatedₙ : (r.evaluateName textₙ).run chain = (.ok n, chain)) :
    r.ReferAlike path ⟨.name textₐ, false⟩ ⟨.name textₙ, false⟩ chain fun found =>
      ∀ bean, found.1 = .ok bean →
        found.2.own.dependents.contains (chain.own.canonical n) r.bean := by
  have here : (r.lookUpHere ⟨.name textₐ, false⟩).run chain =
      (r.lookUpHere ⟨.name textₙ, false⟩).run chain := by
    rw [run_lookUpHere_name hr evaluatedₐ, run_lookUpHere_name hr evaluatedₙ, Action.run_bind,
      Action.run_bind, getByName_congr same]
    rcases found : (getByName (create depth) n).run chain with ⟨stop | bean, s⟩
    · rfl
    · -- what the names stand for is still the same when the edge is recorded
      have grown := (getByName_along Container.workAlong_grows
        (create_along Container.workAlong_grows depth) n).of_run found
      have later : s.own.canonical a = s.own.canonical n := by
        rw [grown.own.canonical, grown.own.canonical, same]
      exact congrArg (fun c => (Except.ok bean, (⟨c, s.ancestors⟩ : Chain)))
        (Container.registerDependent_congr later r.bean)
  refine ⟨(r.lookUpHere ⟨.name textₙ, false⟩).run chain, ?_, ?_, ?_⟩
  · intro bean found
    rw [run_lookUpHere_name hr evaluatedₙ, Action.run_bind] at found ⊢
    rcases looked : (getByName (create depth) n).run chain with ⟨stop | bean, s⟩
    · rw [looked] at found
      cases found
    · exact edge_of_run depth r.bean looked
  · rw [← here]
    exact Resolver.resolve_reference rfl
  · exact Resolver.resolve_reference rfl

/-- So do references to names above that stand for the same name there. -/
theorem referAlike_above {below up : Container} {rest : List Container} {textₐ textₙ : String}
    (hr : r.collaborators = collaborators make evaluation)
    (same : up.canonical a = up.canonical n)
    (evaluatedₐ : (r.evaluateName textₐ).run ⟨below, up :: rest⟩ = (.ok a, ⟨below, up :: rest⟩))
    (evaluatedₙ : (r.evaluateName textₙ).run ⟨below, up :: rest⟩ = (.ok n, ⟨below, up :: rest⟩)) :
    r.ReferAlike path ⟨.name textₐ, true⟩ ⟨.name textₙ, true⟩ ⟨below, up :: rest⟩ fun found =>
      found.1 = ((getByName make n).run ⟨up, rest⟩).1 := by
  have looked : (getByName make a).run ⟨up, rest⟩ = (getByName make n).run ⟨up, rest⟩ :=
    getByName_congr same
  have above : (r.lookUpInParent (parentLookups make) ⟨.name textₐ, true⟩).run ⟨below, up :: rest⟩ =
      (r.lookUpInParent (parentLookups make) ⟨.name textₙ, true⟩).run ⟨below, up :: rest⟩ := by
    rw [run_lookUpInParent_name evaluatedₐ, run_lookUpInParent_name evaluatedₙ,
      run_inParent_cons _ _ rfl, run_inParent_cons _ _ rfl, looked]
  refine ⟨(r.lookUpInParent (parentLookups make) ⟨.name textₙ, true⟩).run ⟨below, up :: rest⟩,
    ?_, ?_, ?_⟩
  · rw [run_lookUpInParent_name evaluatedₙ]
    rfl
  · rw [← above]
    exact Resolver.resolve_reference (run_followReference_above hr path rfl _)
  · exact Resolver.resolve_reference (run_followReference_above hr path rfl _)

end Reference

/-- **An alias is used like the name it stands for**, if that is no alias for another name: both are
known or neither is; they are looked up alike, to the same outcome and the same state; a dependency
on either is recorded as the same edge, which starts at the name; and references to either come to
the same value, or to errors with the same cause, and record that edge when they lead to a bean.  So
do references from a container below to its parent. -/
theorem alias_used_like_name (depth : Nat) {chain : Chain} {a n : String}
    (byname : chain.own.aliases.get? a = some n) (proper : chain.own.canonical n = n) :
    chain.containsBean a = chain.containsBean n ∧
    (getByName (create depth) a).run chain = (getByName (create depth) n).run chain ∧
    (∀ dependent,
      chain.own.registerDependent a dependent = chain.own.registerDependent n dependent ∧
      (chain.own.registerDependent a dependent).dependents.contains n dependent) ∧
    (∀ (r : Resolver Chain) evaluation path textₐ textₙ,
      r.collaborators = collaborators (create depth) evaluation →
      (r.evaluateName textₐ).run chain = (.ok a, chain) →
      (r.evaluateName textₙ).run chain = (.ok n, chain) →
      r.ReferAlike path ⟨.name textₐ, false⟩ ⟨.name textₙ, false⟩ chain fun found =>
        ∀ bean, found.1 = .ok bean → found.2.own.dependents.contains n r.bean) ∧
    ∀ (below : Container) (r : Resolver Chain) evaluation path textₐ textₙ,
      let start : Chain := ⟨below, chain.own :: chain.ancestors⟩
      r.collaborators = collaborators (create depth) evaluation →
      (r.evaluateName textₐ).run start = (.ok a, start) →
      (r.evaluateName textₙ).run start = (.ok n, start) →
      r.ReferAlike path ⟨.name textₐ, true⟩ ⟨.name textₙ, true⟩ start fun found =>
        found.1 = ((getByName (create depth) n).run chain).1 := by
  have same : chain.own.canonical a = chain.own.canonical n :=
    (Container.canonical_alias byname).trans proper.symm
  refine ⟨containsBean_congr same, getByName_congr same, fun dependent => ⟨?_, ?_⟩, ?_, ?_⟩
  · exact Container.registerDependent_congr same dependent
  · have edge := needs_registerDependent chain.own a dependent
    rwa [same, proper] at edge
  · intro r evaluation path textₐ textₙ hr evaluatedₐ evaluatedₙ
    have alike := referAlike_here depth path hr same evaluatedₐ evaluatedₙ
    rwa [proper] at alike
  · intro below r evaluation path textₐ textₙ start hr evaluatedₐ evaluatedₙ
    exact referAlike_above hr same evaluatedₐ evaluatedₙ

/-- An alias for a defined name: a bean that refers to it needs the defined one, and so does a bean
that refers to its name, here and from a container below. -/
theorem alias_used_like_name_of_defined :
    let b : Blueprint := {
      id := 1, className := some "T", scope := .singleton, dependsOn := [], synthetic := false
      resource := none, args := [], properties := [] }
    let own := (({ id := "main" } : Container).registerBlueprint "service" b).registerAlias "svc"
      "service"
    let chain : Chain := ⟨own, []⟩
    let below : Chain := ⟨{ id := "below" }, [own]⟩
    let r : Resolver Chain :=
      { collaborators := collaborators (create 1), bean := "owner", blueprint := b }
    own.aliases.get? "svc" = some "service" ∧ own.canonical "service" = "service" ∧
      chain.containsBean "svc" = chain.containsBean "service" ∧
      (getByName (create 1) "svc").run chain = (getByName (create 1) "service").run chain ∧
      (own.registerDependent "svc" "owner").dependents.contains "service" "owner" ∧
      r.ReferAlike (.root "x") ⟨.name "svc", false⟩ ⟨.name "service", false⟩ chain (fun found =>
        ∀ bean, found.1 = .ok bean → found.2.own.dependents.contains "service" "owner") ∧
      r.ReferAlike (.root "x") ⟨.name "svc", true⟩ ⟨.name "service", true⟩ below fun found =>
        found.1 = ((getByName (create 1) "service").run chain).1 := by
  intro b own chain below r
  have byname : own.aliases.get? "svc" = some "service" := by decide +kernel
  have proper : own.canonical "service" = "service" := by decide +kernel
  have evaluated (text : String) (known : text = "svc" ∨ text = "service") (s : Chain) :
      (r.evaluateName text).run s = (.ok text, s) := by
    rcases known with rfl | rfl <;> rfl
  obtain ⟨known, looked, recorded, here, above⟩ :=
    alias_used_like_name 1 (show chain.own.aliases.get? "svc" = some "service" from byname) proper
  exact ⟨byname, proper, known, looked, (recorded "owner").2,
    here r .placeholders _ _ _ rfl (evaluated _ (.inl rfl) _) (evaluated _ (.inr rfl) _),
    above _ r .placeholders _ _ _ rfl (evaluated _ (.inl rfl) _) (evaluated _ (.inr rfl) _)⟩

/-- An alias for a name that is an alias itself: the name is known and has a bean, the alias is
unknown and has none, and a dependency on it is recorded for the name, which is not looked at again.
-/
theorem alias_of_alias :
    let own := ((({ id := "main" } : Container).registerSingleton "m" (.int 1)).registerAlias "n"
      "m").registerAlias "a" "n"
    let chain : Chain := ⟨own, []⟩
    own.aliases.get? "a" = some "n" ∧ "a" ≠ "n" ∧ own.canonical "n" = "m" ∧
      chain.containsBean "a" = false ∧ chain.containsBean "n" = true ∧
      ((getByName (create 1) "a").run chain).1 = .error (.error (.noSuchBean "n")) ∧
      ((getByName (create 1) "n").run chain).1.toOption.isSome ∧
      (own.registerDependent "a" "owner").dependents.targets "n" = ["owner"] ∧
      (own.registerDependent "n" "owner").dependents.targets "m" = ["owner"] ∧
      (own.registerDependent "n" "owner").dependents.targets "n" = [] := by
  intro own chain
  refine ⟨by decide +kernel, by decide, by decide +kernel, by decide +kernel, by decide +kernel,
    Stop.eq_of_error? (by decide +kernel), by decide +kernel, by decide +kernel, by decide +kernel,
    by decide +kernel⟩

end Chain

end Wiring
