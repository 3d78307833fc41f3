import Wiring.Proofs.Container.Growth
import Wiring.Proofs.Session.Along

/-!
# Sessions — the products of factories

A container logs each factory it unwraps, with whether its product is post-processed.  A factory is
unwrapped as soon as it has been made (`Container.Unwraps`), and `c.Accounts c'` says that all
entries the log has got from `c` to `c'` come from that.

**Whatever is done in a session but the unwrapping of a factory by its own order, each entry of the
log is that of a factory made just before** (`factories_post_processed`).  The product is
post-processed unless the blueprint of the factory is synthetic, with one exception: that of a
synthetic definition is post-processed all the same (`synthetic_definition_post_processed`).
-/

namespace Wiring

namespace Container

variable {a b c c' : Container} {entry : String × Bool} {blueprint : Blueprint}

/-! ### A factory about to be unwrapped -/

/-- The making of the factory is the last that happened in the container. -/
theorem Unwraps.noted (h : c.Unwraps entry blueprint) :
    ∃ events, c.history = events ++ [.made entry.1 blueprint] := by
  cases h with
  | inner made now => exact now ▸ Chain.create_noted made
  | defined defined made now =>
      obtain ⟨events, hevents⟩ := Chain.create_noted made
      exact ⟨events, by rw [now, learn_eq, hevents]⟩

theorem Unwraps.className (h : c.Unwraps entry blueprint) :
    blueprint.className = some Chain.factoryClass := by
  have factory {depth : Nat} {name : String} {b node : Blueprint} {v : Value}
      {start final : Chain}
      (made : Chain.create depth name b start = (⟨node, .ok (.factory v)⟩, final)) :
      b.className = some Chain.factoryClass :=
    Chain.className_of_factory (Chain.create_makes (congrArg (fun run => run.1.outcome) made))
  cases h with
  | inner made now => exact factory made
  | defined defined made now => exact factory made

/-- Only the definition of a synthetic factory has its product post-processed against the flag. -/
theorem Unwraps.post_processed (h : c.Unwraps entry blueprint) :
    entry.2 = !blueprint.synthetic ∨
      entry.2 = true ∧ blueprint.synthetic = true ∧
        ∃ d, c.definitions.get? entry.1 = some d ∧ blueprint.Grows d := by
  cases h with
  | inner made now => exact .inl rfl
  | @defined depth name b node factory start final defined made now =>
      cases synthetic : blueprint.synthetic with
      | false => exact .inl rfl
      | true =>
          have grown := (Chain.create_along workAlong_grows depth name blueprint).of_run made
          have later := (grown.own.trans (grows_learn final.own name node)).definitions name
          rw [defined, ← now] at later
          cases defined' : c.definitions.get? name with
          | none => rw [defined'] at later; cases later
          | some d =>
              rw [defined'] at later
              cases later with
              | some grows => exact .inr ⟨rfl, rfl, d, rfl, grows⟩

/-! ### The log -/

/-- Every entry the log has got meanwhile is that of a factory which had just been made, in a state
of the container in between. -/
structure Accounts (c c' : Container) : Prop where
  id : c'.id = c.id
  history : c.history <+: c'.history
  unwrapped : c.unwrapped <+: c'.unwrapped
  moment {before : List (String × Bool)} {entry : String × Bool}
    (new : c.unwrapped.length ≤ before.length) (logged : before ++ [entry] <+: c'.unwrapped) :
    ∃ (moment : Container) (blueprint : Blueprint), moment.id = c.id ∧
      c.history <+: moment.history ∧ moment.history <+: c'.history ∧
      moment.unwrapped = before ∧ moment.Unwraps entry blueprint

/-- A log does not reach beyond its end. -/
theorem not_logged {log before : List (String × Bool)} (new : log.length ≤ before.length) :
    ¬ before ++ [entry] <+: log := by
  intro logged
  have hlength := logged.length_le
  rw [List.length_append, List.length_singleton] at hlength
  omega

namespace Accounts

/-- A change that leaves the log as it is. -/
theorem of_log (id : b.id = a.id) (history : a.history <+: b.history)
    (unwrapped : b.unwrapped = a.unwrapped) : a.Accounts b where
  id := id
  history := history
  unwrapped := unwrapped ▸ List.prefix_refl _
  moment new logged := absurd (unwrapped ▸ logged) (not_logged new)

theorem of_eq (id : b.id = a.id) (history : b.history = a.history)
    (unwrapped : b.unwrapped = a.unwrapped) : a.Accounts b :=
  of_log id (history ▸ List.prefix_refl _) unwrapped

theorem refl (c : Container) : c.Accounts c := of_eq rfl rfl rfl

theorem trans (h : a.Accounts b) (h' : b.Accounts c) : a.Accounts c where
  id := h'.id.trans h.id
  history := h.history.trans h'.history
  unwrapped := h.unwrapped.trans h'.unwrapped
  moment {before entry} new logged := by
    by_cases early : before.length < b.unwrapped.length
    · -- the entry was there half-way already
      have logged : before ++ [entry] <+: b.unwrapped := by
        refine List.prefix_of_prefix_length_le logged h'.unwrapped ?_
        rw [List.length_append, List.length_singleton]
        exact early
      obtain ⟨moment, blueprint, id, since, later, rest⟩ := h.moment new logged
      exact ⟨moment, blueprint, id, since, later.trans h'.history, rest⟩
    · obtain ⟨moment, blueprint, id, since, rest⟩ := h'.moment (Nat.not_lt.1 early) logged
      exact ⟨moment, blueprint, id.trans h.id, h.history.trans since, rest⟩

instance : IsPreorder Container Accounts where
  refl := Accounts.refl
  trans _ _ _ := Accounts.trans

end Accounts

theorem accounts_note (c : Container) (e : Event) : c.Accounts (c.note e) :=
  .of_log rfl (List.prefix_append _ _) rfl

/-- The entry of a factory that has just been made is accounted for. -/
theorem accounts_unwrap (h : c.Unwraps entry blueprint) :
    c.Accounts { c with unwrapped := c.unwrapped ++ [entry] } where
  id := rfl
  history := List.prefix_refl _
  unwrapped := List.prefix_append _ _
  moment {before other} new logged := by
    rcases List.prefix_concat_iff.1 logged with last | earlier
    · obtain ⟨rfl, hentry⟩ := List.append_inj' last rfl
      obtain rfl := List.singleton_inj.1 hentry
      exact ⟨c, blueprint, rfl, List.prefix_refl _, List.prefix_refl _, rfl, h⟩
    · exact absurd earlier (not_logged new)

theorem accounts_conclude {name : String} {bean : Option Managed}
    (h : (c.note (.began name)).Accounts c') : c.Accounts (c'.conclude name blueprint bean) := by
  refine ((accounts_note c _).trans h).trans ?_
  rw [conclude_eq]
  exact .of_log rfl (List.prefix_append _ _) rfl

end Container

namespace Session

open Container

/-- The log has nothing to account for but factories unwrapped by order of the session. -/
theorem stepAlong_accounts : StepAlong Accounts False where
  registerDependent _ _ _ := .of_eq rfl rfl rfl
  registerContained _ _ _ := .of_eq rfl rfl rfl
  claim _ _ _ _ := .of_eq rfl rfl rfl
  begin _ _ := .of_eq rfl rfl rfl
  newObject _ _ := .of_eq rfl rfl rfl
  unwrap _ _ h := by
    obtain ⟨blueprint, h⟩ := h.resolve_left id
    exact accounts_unwrap h
  learn c name left := by
    rw [learn_eq]
    exact .of_eq rfl rfl rfl
  found c _ _ _ := accounts_note c _
  conclude h _ _ _ := accounts_conclude h
  made {_ _ _ _ _ _ _ c} _ noted := noted ▸ accounts_note c _
  id h := h.id
  registerBlueprint c name b := by
    rw [registerBlueprint]
    split <;> exact .of_log rfl (List.prefix_append _ _) rfl
  registerSingleton c name v := by
    unfold registerSingleton
    split <;> exact .of_log rfl (List.prefix_append _ _) rfl
  registerNull _ _ := .of_log rfl (List.prefix_append _ _) rfl
  registerType _ _ := .of_eq rfl rfl rfl
  registerAlias _ _ _ := .of_log rfl (List.prefix_append _ _) rfl
  reportStaleCandidate _ _ := .of_eq rfl rfl rfl
  definePlaceholder _ _ _ := .of_eq rfl rfl rfl
  refresh _ _ _ := .of_eq rfl rfl rfl

/-- **Every factory that is unwrapped in a session was made just before**, unless the session orders
the unwrapping: for each entry that a container logs in the course of a script there is a state of
the container, when the log ended right before the entry, in which the making of a factory of that
name was the last that had happened.  The product is post-processed unless the blueprint of which
the factory was made is synthetic, or although it is, if the name is that of its definition. -/
theorem factories_post_processed (s : Session) (entries : List Entry)
    (ordered : ∀ e ∈ entries, e.step.isUnwrap = false) {id : String} {m m' : Member}
    (hm : s.member? id = some m) (hm' : (s.run entries).member? id = some m') :
    m.container.unwrapped <+: m'.container.unwrapped ∧
    ∀ (before : List (String × Bool)) (name : String) (postProcess : Bool),
      m.container.unwrapped.length ≤ before.length →
      before ++ [(name, postProcess)] <+: m'.container.unwrapped →
      ∃ (moment : Container) (b : Blueprint) (events : List Event),
        moment.id = id ∧ m.container.history <+: moment.history ∧
        moment.history <+: m'.container.history ∧ moment.unwrapped = before ∧
        moment.history = events ++ [.made name b] ∧ moment.Unwraps (name, postProcess) b ∧
        b.className = some Chain.factoryClass ∧
        (postProcess = !b.synthetic ∨ postProcess = true ∧ b.synthetic = true ∧
          ∃ d, moment.definitions.get? name = some d ∧ b.Grows d) := by
  obtain ⟨m₁, hm₁, accounts⟩ := (run_keeps_of stepAlong_accounts entries (.inr ordered) s).later hm
  obtain rfl : m₁ = m' := Option.some.inj (hm₁.symm.trans hm')
  refine ⟨accounts.unwrapped, fun before name postProcess new logged => ?_⟩
  obtain ⟨moment, b, hid, since, later, log, unwraps⟩ := accounts.moment new logged
  obtain ⟨events, noted⟩ := unwraps.noted
  exact ⟨moment, b, events, hid.trans (member?_id hm), since, later, log, noted, unwraps,
    unwraps.className, unwraps.post_processed⟩

/-- A nested synthetic factory is unwrapped without post-processing; it was made just before. -/
theorem factories_post_processed_of_nested :
    let product : Blueprint := {
      id := 1, className := some "T", scope := .singleton, dependsOn := [], synthetic := false
      resource := none, args := [], properties := [] }
    let factory : Blueprint := { product with
      id := 2, className := some Chain.factoryClass, synthetic := true
      properties := [("product", .nested 0 product)] }
    let entries : List Entry := [
      { container := "main", step := .resolve (.given (.holder "f" [] 0 factory)) (.root "p") }]
    let s := start [("main", none)] "owner" product
    (∀ e ∈ entries, e.step.isUnwrap = false) ∧
      ∃ m m', s.member? "main" = some m ∧ (s.run entries).member? "main" = some m' ∧
        m.container.unwrapped = [] ∧ m'.container.unwrapped = [("f", false)] ∧
        ∃ (moment : Container) (b : Blueprint), moment.unwrapped = [] ∧
          moment.Unwraps ("f", false) b ∧ b.synthetic = true := by
  intro product factory entries s
  have ordered : ∀ e ∈ entries, e.step.isUnwrap = false := by decide
  have hm : s.member? "main" = some { container := { id := "main" } } := rfl
  have hrun : ((s.run entries).member? "main").map (fun m => m.container.unwrapped) =
      some [("f", false)] := by decide +kernel
  obtain ⟨m', hm', log⟩ := Option.map_eq_some_iff.1 hrun
  refine ⟨ordered, _, m', hm, hm', rfl, log, ?_⟩
  obtain ⟨moment, b, -, -, -, -, hlog, -, unwraps, -, flag⟩ :=
    (factories_post_processed s entries ordered hm hm').2 [] "f" false (Nat.le_refl 0)
      (log ▸ List.prefix_refl _)
  refine ⟨moment, b, hlog, unwraps, ?_⟩
  rcases flag with flag | ⟨flag, -⟩
  · cases synthetic : b.synthetic with
    | true => rfl
    | false => rw [synthetic] at flag; cases flag
  · cases flag

/-- The product of a synthetic definition is post-processed, that of the same blueprint inside
another bean is not. -/
theorem synthetic_definition_post_processed :
    let product : Blueprint := {
      id := 1, className := some "T", scope := .singleton, dependsOn := [], synthetic := false
      resource := none, args := [], properties := [] }
    let factory : Blueprint := { product with
      id := 2, className := some Chain.factoryClass, synthetic := true
      properties := [("product", .nested 0 product)] }
    let entries : List Entry := [
      { container := "main", step := .registerBlueprint "f" factory },
      { container := "main", step := .getByName "f" },
      { container := "main", step := .resolve (.given (.holder "g" [] 0 factory)) (.root "p") }]
    let s := start [("main", none)] "owner" product
    ((s.run entries).member? "main").map (fun m => m.container.unwrapped) =
      some [("f", true), ("g", false)] := by
  decide +kernel

end Session

end Wiring
