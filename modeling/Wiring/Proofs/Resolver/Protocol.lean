import Wiring.Proofs.Naming
import Wiring.Proofs.Resolver.Transcripts
import Wiring.Proofs.Resolver.Values

/-!
# Resolver — the protocol of inner beans

What is asked of the collaborators for the object of a nested blueprint, and in which order.  When
nothing fails the exchanges are those of a `Course`: the merging; for a singleton the search for a
name, up to the first that is not in use; the recording as part of the resolver's bean; then the
beans that are depended on, one after the other, each recorded and looked up; the making of the
object; and, if that is a factory, the unwrapping of its product.

**The exchanges of every run are a prefix of a course, ended by the first call that fails**
(`resolveInner_protocol`), and the outcome is told by where they end (`Proceeds`).  The courses are
those of all answers that collaborators could give, so nothing is assumed about the collaborators.
-/

namespace Wiring

variable {σ : Type}

/-- Why there is no result, with the error changed. -/
def Stop.map (f : Error → Error) : Stop → Stop
  | .error e => .error (f e)
  | .exhausted => .exhausted

theorem Action.run_mapError_map {α : Type} (f : Error → Error) (x : Action σ α) (s : σ) :
    (x.mapError f).run s = ((x.run s).1.mapError (Stop.map f), (x.run s).2) := by
  rw [run_mapError]
  rcases x.run s with ⟨(_ | _) | _, _⟩ <;> rfl

namespace Resolver

/-- What may be answered while the object of a nested blueprint is made, when nothing fails. -/
structure Course where
  merged : Blueprint
  /-- How many of the names that are tried are in use. -/
  busy : Nat
  /-- The beans that are depended on, under their names. -/
  needed : List (String × Managed)
  named : needed.map Prod.fst = merged.dependsOn
  made : Managed
  /-- The product, if a factory is made. -/
  product : Managed

/-- The name number `k` is tried. -/
def tried (r : Resolver σ) (proposed : String) (inUse : Bool) (k : Nat) : Exchange :=
  .answered (.isNameInUse (r.naming.nth proposed k)) (.flag inUse)

/-- The search for a name, of which `busy` are in use. -/
def searched (r : Resolver σ) (proposed : String) (merged : Blueprint) (busy : Nat) :
    List Exchange :=
  if merged.isSingleton then
    (List.range busy).map (r.tried proposed true) ++ [r.tried proposed false busy]
  else []

/-- The name an object is made under. -/
def nameFor (r : Resolver σ) (proposed : String) (merged : Blueprint) (busy : Nat) : String :=
  if merged.isSingleton then r.naming.nth proposed busy else proposed

/-- The beans that are depended on are recorded as needed and looked up. -/
def prepared (inner : String) (needed : List (String × Managed)) : List Exchange :=
  needed.flatMap fun (name, bean) =>
    [.answered (.registerDependent name inner) .done,
      .answered (.lookup (.getByName name)) (.bean bean)]

/-- The product of what is made is unwrapped, if it is a factory. -/
def unwrapped (inner : String) (merged : Blueprint) (product : Managed) :
    Managed → List Exchange
  | .factory factory =>
    [.answered (.unwrapProduct factory inner (!merged.synthetic)) (.bean product)]
  | _ => []

namespace Course

/-- The name the object is made under. -/
def inner (c : Course) (r : Resolver σ) (proposed : String) : String :=
  r.nameFor proposed c.merged c.busy

/-- What is asked once the object has a name. -/
def making (c : Course) (bean inner : String) : List Exchange :=
  .answered (.registerContained inner bean) .done ::
    (prepared inner c.needed ++
      .answered (.createObject inner c.merged) (.bean c.made) ::
        unwrapped inner c.merged c.product c.made)

/-- What is asked after the merging. -/
def afterwards (c : Course) (r : Resolver σ) (proposed : String) : List Exchange :=
  r.searched proposed c.merged c.busy ++ c.making r.bean (c.inner r proposed)

/-- What is handed out: the product of a factory, or else what is made. -/
def bean (c : Course) : Managed :=
  match c.made with
  | .factory _ => c.product
  | made => made

end Course

/-- How the making of an object for a nested blueprint goes from the state `s`: the exchanges that
are made, and what comes of them. -/
inductive Proceeds (r : Resolver σ) (path : ArgPath) (proposed : String) (nested : Blueprint)
    (s : σ) : List Exchange → Except Stop Value → Prop where
  /-- Every call is answered. -/
  | finished (c : Course) :
      Proceeds r path proposed nested s
        (.answered (.mergeBlueprint proposed nested r.blueprint) (.blueprint c.merged) ::
          c.afterwards r proposed)
        (.ok c.bean.toValue)
  /-- The blueprint cannot be merged. -/
  | unmerged (stop : Stop) :
      Proceeds r path proposed nested s
        [.failed (.mergeBlueprint proposed nested r.blueprint) stop]
        (.error (stop.map fun e => .innerBean (r.site path) proposed none e))
  /-- A later call, one for a bean, fails, and is the last. -/
  | stopped (c : Course) {before rest : List Exchange} {call : Call} {bean : Managed}
      (h : c.afterwards r proposed = before ++ .answered call (.bean bean) :: rest) (stop : Stop) :
      Proceeds r path proposed nested s
        (.answered (.mergeBlueprint proposed nested r.blueprint) (.blueprint c.merged) ::
          (before ++ [.failed call stop]))
        (.error (stop.map fun e =>
          .innerBean (r.site path) (c.inner r proposed) c.merged.className e))
  /-- More names are said to be in use than the collaborators count. -/
  | unnamed (merged : Blueprint) (singleton : merged.isSingleton) (counted : Nat)
      (h : counted = r.collaborators.namesInUse
        ((r.collaborators.mergeBlueprint proposed nested r.blueprint).run s).2) :
      Proceeds r path proposed nested s
        (.answered (.mergeBlueprint proposed nested r.blueprint) (.blueprint merged) ::
          (List.range (counted + 1)).map (r.tried proposed true))
        (.error .exhausted)

/-- The same resolver, its collaborators keeping the exchanges made. -/
def recorded (r : Resolver σ) : Resolver (Recorded σ) :=
  r.on r.collaborators.recorded

variable (r : Resolver σ) (proposed : String)

/-! ### The name -/

/-- The search from the name of number `counter` on ends at the first that is not in use. -/
theorem searchName_recorded : ∀ (tries counter : Nat) (t : Recorded σ), ∃ s',
    (∃ k, (r.recorded.searchName proposed tries counter (r.naming.nth proposed counter)).run t =
      (.ok (r.naming.nth proposed (counter + k)), ⟨s', t.exchanges ++
        ((List.range' counter k).map (r.tried proposed true) ++
          [r.tried proposed false (counter + k)])⟩)) ∨
    (r.recorded.searchName proposed tries counter (r.naming.nth proposed counter)).run t =
      (.error .exhausted, ⟨s', t.exchanges ++
        (List.range' counter tries).map (r.tried proposed true)⟩)
  | 0, counter, t => ⟨t.state, .inr (by simp; rfl)⟩
  | tries + 1, counter, t => by
      let asked := r.collaborators.isNameInUse (r.naming.nth proposed counter) t.state
      have step : (r.recorded.searchName proposed (tries + 1) counter
          (r.naming.nth proposed counter)).run t =
          (if asked.1 then r.recorded.searchName proposed tries (counter + 1)
              (r.naming.nth proposed (counter + 1))
            else pure (r.naming.nth proposed counter) : Action (Recorded σ) String).run
              ⟨asked.2, t.exchanges ++ [r.tried proposed asked.1 counter]⟩ := by
        rw [searchName, Action.run_bind_lift]
        rfl
      rw [step]
      cases inUse : asked.1 with
      | false =>
          refine ⟨asked.2, .inl ⟨0, ?_⟩⟩
          simp
          rfl
      | true =>
          obtain ⟨s', ⟨k, found⟩ | exhausted⟩ := searchName_recorded tries (counter + 1)
            ⟨asked.2, t.exchanges ++ [r.tried proposed true counter]⟩
          · refine ⟨s', .inl ⟨k + 1, ?_⟩⟩
            rw [if_pos rfl, found]
            simp [List.range'_succ, Nat.add_assoc, Nat.add_comm 1 k]
          · refine ⟨s', .inr ?_⟩
            rw [if_pos rfl, exhausted]
            simp [List.range'_succ]

/-- The name of an inner bean is searched for only if it is a singleton. -/
theorem innerName_recorded (merged : Blueprint) (t : Recorded σ) : ∃ s',
    (∃ busy, (r.recorded.innerName proposed merged).run t =
      (.ok (r.nameFor proposed merged busy),
        ⟨s', t.exchanges ++ r.searched proposed merged busy⟩)) ∨
    merged.isSingleton ∧ (r.recorded.innerName proposed merged).run t =
      (.error .exhausted, ⟨s', t.exchanges ++
        (List.range (r.collaborators.namesInUse t.state + 1)).map (r.tried proposed true)⟩) := by
  rw [innerName]
  cases single : merged.isSingleton with
  | false =>
      refine ⟨t.state, .inl ⟨0, ?_⟩⟩
      simp [nameFor, searched, single]
      rfl
  | true =>
      have search : (r.recorded.freshName proposed).run t =
          (r.recorded.searchName proposed (r.collaborators.namesInUse t.state + 1) 0
            (r.naming.nth proposed 0)).run t := rfl
      rw [if_pos rfl, search]
      obtain ⟨s', ⟨k, found⟩ | exhausted⟩ :=
        r.searchName_recorded proposed (r.collaborators.namesInUse t.state + 1) 0 t
      · refine ⟨s', .inl ⟨k, ?_⟩⟩
        rw [found]
        simp [nameFor, searched, single, List.range_eq_range']
      · refine ⟨s', .inr ⟨rfl, ?_⟩⟩
        rw [exhausted, List.range_eq_range']

/-! ### The object -/

theorem prepare_follows (inner : String) : ∀ names : List String,
    Follows (fun exchanges _ => ∃ needed : List (String × Managed),
      needed.map Prod.fst = names ∧ exchanges = prepared inner needed)
      (r.recorded.prepare inner names)
  | [] => (Follows.pure PUnit.unit).imp fun ⟨hnil, _⟩ => ⟨[], rfl, hnil⟩
  | name :: names => by
      rw [prepare]
      refine ((Follows.after (.registerDependent name inner) _).bind fun _ =>
        (Follows.act (.lookup (.getByName name)) _).bind fun bean =>
          prepare_follows inner names).imp ?_
      rintro _ ⟨⟩ ⟨_, ⟨⟩, _, rfl, ⟨_, bean, _, rfl, ⟨needed, rfl, rfl⟩, rfl⟩, rfl⟩
      exact ⟨(name, bean) :: needed, rfl, rfl⟩

/-- What is handed out when the object is made: the product of a factory, or the object. -/
theorem given_follows (inner : String) (merged : Blueprint) (made : Managed) :
    Follows
      (fun exchanges v => ∃ product, exchanges = unwrapped inner merged product made ∧
        v = (match made with | .factory _ => product | made => made).toValue)
      (match made with
        | .factory factory => do
          let product ← r.recorded.collaborators.unwrapProduct factory inner (!merged.synthetic)
          return product.toValue
        | made => pure made.toValue : Action (Recorded σ) Value) := by
  cases made with
  | factory factory =>
      refine ((Follows.act (.unwrapProduct factory inner (!merged.synthetic)) _).bind
        fun product => .pure product.toValue).imp ?_
      rintro _ _ ⟨_, product, _, rfl, ⟨rfl, rfl⟩, rfl⟩
      exact ⟨product, rfl, rfl⟩
  | value v => exact (Follows.pure v).imp fun ⟨hnil, hv⟩ => ⟨.null, hnil, hv⟩
  | null => exact (Follows.pure Value.null).imp fun ⟨hnil, hv⟩ => ⟨.null, hnil, hv⟩

/-- Once the object has a name, it is made as a course has it. -/
theorem createInner_follows (inner : String) (merged : Blueprint) (busy : Nat) :
    Follows
      (fun exchanges v => ∃ c : Course, c.merged = merged ∧ c.busy = busy ∧
        exchanges = c.making r.bean inner ∧ v = c.bean.toValue)
      (r.recorded.createInner inner merged) := by
  refine ((Follows.after (.registerContained inner r.bean) _).bind fun _ =>
    (r.prepare_follows inner merged.dependsOn).bind fun _ =>
      (Follows.act (.createObject inner merged) _).bind fun made =>
        r.given_follows inner merged made).imp ?_
  rintro _ _ ⟨_, ⟨⟩, _, rfl, ⟨_, ⟨⟩, _, ⟨needed, named, rfl⟩,
    ⟨_, made, _, rfl, ⟨product, rfl, rfl⟩, rfl⟩, rfl⟩, rfl⟩
  exact ⟨⟨merged, busy, needed, named, made, product⟩, rfl, rfl, rfl, rfl⟩

/-! ### The protocol -/

/-- What is asked of the collaborators for the object of a nested blueprint, and what they answer,
in order. -/
def transcript (r : Resolver σ) (path : ArgPath) (proposed : String) (nested : Blueprint) (s : σ) :
    List Exchange :=
  ((r.recorded.resolveInner path proposed nested).run ⟨s, []⟩).2.exchanges

/-- With the exchanges kept, the object of a nested blueprint is made as without. -/
theorem resolveInner_recorded (path : ArgPath) (nested : Blueprint) (s : σ) :
    ((r.recorded.resolveInner path proposed nested).run ⟨s, []⟩).1 =
        ((r.resolveInner path proposed nested).run s).1 ∧
      ((r.recorded.resolveInner path proposed nested).run ⟨s, []⟩).2.state =
        ((r.resolveInner path proposed nested).run s).2 :=
  have run := resolveInner_mirrors r.collaborators.mirrors_recorded path proposed nested s ⟨s, []⟩
    rfl
  ⟨run.result.symm, run.state⟩

/-- What is made as a course has it, once there is a name for it, proceeds as the course. -/
theorem Proceeds.of_plays {r : Resolver σ} {path : ArgPath} {proposed : String}
    {nested merged : Blueprint} {s : σ} {busy : Nat} {made : List Exchange}
    {outcome : Except Stop Value}
    (plays : Plays (fun exchanges v => ∃ c : Course, c.merged = merged ∧ c.busy = busy ∧
      exchanges = c.making r.bean (r.nameFor proposed merged busy) ∧ v = c.bean.toValue)
      made outcome) :
    Proceeds r path proposed nested s
      (.answered (.mergeBlueprint proposed nested r.blueprint) (.blueprint merged) ::
        (r.searched proposed merged busy ++ made))
      (outcome.mapError
        (Stop.map (r.innerError path (r.nameFor proposed merged busy) merged.className))) := by
  cases plays with
  | done h =>
      obtain ⟨c, rfl, rfl, rfl, rfl⟩ := h
      exact .finished c
  | @stopped before rest call bean v h stop =>
      obtain ⟨c, rfl, rfl, hmaking, -⟩ := h
      have goes : c.afterwards r proposed =
          (r.searched proposed c.merged c.busy ++ before) ++
            .answered call (.bean bean) :: rest := by
        rw [Course.afterwards, Course.inner, ← hmaking, List.append_assoc]
      rw [← List.append_assoc]
      exact .stopped c goes stop

/-- **What is asked of the collaborators for the object of a nested blueprint is a prefix of a
course**, ended by the first call that fails, which the outcome tells of. -/
theorem resolveInner_protocol (r : Resolver σ) (path : ArgPath) (proposed : String)
    (nested : Blueprint) (s : σ) :
    Proceeds r path proposed nested s (r.transcript path proposed nested s)
      ((r.resolveInner path proposed nested).run s).1 := by
  rw [← (r.resolveInner_recorded proposed path nested s).1, transcript, resolveInner,
    Action.run_bind, Action.run_mapError_map]
  let merging := (r.collaborators.mergeBlueprint proposed nested r.blueprint).run s
  have asked : (r.recorded.collaborators.mergeBlueprint proposed nested r.recorded.blueprint).run
      ⟨s, []⟩ = (merging.1, ⟨merging.2,
        [⟨.mergeBlueprint proposed nested r.blueprint, merging.1.map .blueprint⟩]⟩) := rfl
  rw [asked]
  cases merging.1 with
  | error stop => exact .unmerged stop
  | ok merged =>
      let t : Recorded σ := ⟨merging.2,
        [.answered (.mergeBlueprint proposed nested r.blueprint) (.blueprint merged)]⟩
      change Proceeds r path proposed nested s
        ((r.recorded.innerName proposed merged >>= fun inner =>
          (r.recorded.createInner inner merged).mapError
            (r.innerError path inner merged.className)).run t).2.exchanges
        ((r.recorded.innerName proposed merged >>= fun inner =>
          (r.recorded.createInner inner merged).mapError
            (r.innerError path inner merged.className)).run t).1
      rw [Action.run_bind]
      obtain ⟨s', ⟨busy, found⟩ | ⟨single, exhausted⟩⟩ := r.innerName_recorded proposed merged t
      · obtain ⟨more, hmore, plays⟩ :=
          (r.createInner_follows (r.nameFor proposed merged busy) merged busy).run
            ⟨s', t.exchanges ++ r.searched proposed merged busy⟩
        rw [found]
        dsimp only
        rw [Action.run_mapError_map, hmore]
        exact .of_plays plays
      · rw [exhausted]
        exact .unnamed merged single _ rfl

end Resolver

end Wiring
