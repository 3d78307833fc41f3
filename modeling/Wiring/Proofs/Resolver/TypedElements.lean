import Wiring.Proofs.Resolver.Collections
import Wiring.Session.Step

/-!
# Resolver — a type for an array, or for each of its elements

An array with a declared element type loads it once, before its elements, and converts each element
unless the type is `any`.  A literal with a declared type loads it after its text was evaluated, and
is always converted.

**Where the type is loaded the same each time, and conversion into `any` keeps a value, the two come
to the same** (`typed_elements_agree`): the texts evaluated, the flags raised, the values, and the
error with its place and its cause.
-/

namespace Wiring

variable {σ τ : Type}

/-- The call is the evaluation of a text. -/
def Call.isEvaluation : Call → Bool
  | evaluate _ _ => true
  | _ => false

theorem Traced.run_after {α : Type} {call : Call} {x : StateM σ α} {t : Traced σ} {a : α} {s' : σ}
    (h : x t.state = (a, s')) : Traced.after call x t = (a, ⟨s', t.calls ++ [call]⟩) := by
  change ((x t.state).1, (⟨(x t.state).2, t.calls ++ [call]⟩ : Traced σ)) = _
  rw [h]

/-- `view` shows the same of both states. -/
def SeenAlike (view : σ → τ) (s t : σ) : Prop :=
  view s = view t

namespace Resolver

/-- The name loads the type each time.  Of the state, evaluation of texts and conversion into the
type work on what `view` shows; loading leaves that as it is, and so does conversion into `any`,
which keeps the value. -/
structure Typing (r : Resolver σ) (view : σ → τ) (name : String) (ty : Ty) : Prop where
  loads (s : σ) : ∃ s', (r.collaborators.loadType name).run s = (.ok ty, s') ∧ view s' = view s
  keeps (any : ty = .any) (v : Value) (s : σ) :
    ∃ s', (r.collaborators.coerce v ty).run s = (.ok v, s') ∧ view s' = view s
  evaluates (text : String) :
    Mirrors (SeenAlike view) (r.evaluateText text).run (r.evaluateText text).run
  converts (v : Value) :
    Mirrors (SeenAlike view) (r.collaborators.coerce v ty).run (r.collaborators.coerce v ty).run

variable {r : Resolver σ} {view : σ → τ} {name : String} {ty : Ty} {s t : σ}

/-- Where loading leaves the state, and so does conversion into `any`, evaluation and conversion may
see all of it. -/
theorem Typing.of_kept
    (loads : ∀ s, (r.collaborators.loadType name).run s = (.ok ty, s))
    (keeps : ty = .any → ∀ v s, (r.collaborators.coerce v ty).run s = (.ok v, s)) :
    r.Typing id name ty where
  loads s := ⟨s, loads s, rfl⟩
  keeps any v s := ⟨s, keeps any v s, rfl⟩
  evaluates text := by
    rintro s _ rfl
    exact ⟨rfl, rfl⟩
  converts v := by
    rintro s _ rfl
    exact ⟨rfl, rfl⟩

/-! ### Elements -/

/-- The literal of a text is evaluated as it is with another type. -/
theorem evaluateLiteral_of_text (l l' : Literal) (text : l.text = l'.text)
    (evaluates : ∀ text, Mirrors (SeenAlike view) (r.evaluateText text).run
      (r.evaluateText text).run) (flags : l.dynamic = l'.dynamic) (same : SeenAlike view s t) :
    SideBySide (SeenAlike view)
      (fun a b _ => a.node.dynamic = b.node.dynamic ∧ a.outcome = b.outcome)
      (r.evaluateLiteral l) (r.evaluateLiteral l') s t := by
  unfold evaluateLiteral
  rw [← text]
  cases l.text with
  | none => exact .pure same ⟨flags, rfl⟩
  | some text =>
      refine (evaluates text s t same).bind_same fun outcome s t same => ?_
      cases outcome with
      | error stop => exact .pure same ⟨flags, rfl⟩
      | ok v =>
          refine .pure same ⟨?_, rfl⟩
          dsimp only [observed]
          split
          · exact flags
          · rfl

variable {l node : Literal} {mid mid' : σ} {v : Value}

theorem element_error {stop : Stop} (ty : Ty) (place : ArgPath)
    (evaluated : r.evaluateLiteral l s = (⟨node, .error stop⟩, mid)) :
    r.element ty place (.literal l) s = (⟨.literal node, .error stop⟩, mid) := by
  rw [element, resolve, resolveLiteral]
  simp only [state_bind, evaluated]
  rfl

/-- A literal without a type is converted as an element. -/
theorem element_untyped (ty : Ty) (place : ArgPath) (target : l.target = none)
    (typeName : l.typeName = none) (evaluated : r.evaluateLiteral l s = (⟨node, .ok v⟩, mid)) :
    r.element ty place (.literal l) s = (r.convertElement place ty v).leaving (.literal node) mid := by
  rw [element, resolve, resolveLiteral, targetType, target, typeName]
  simp only [state_bind, evaluated]
  rfl

/-- A literal with a type is converted into it, and as an element into `any` it stays. -/
theorem element_typed (place : ArgPath) (target : l.target = none)
    (typeName : l.typeName = some name) (evaluated : r.evaluateLiteral l s = (⟨node, .ok v⟩, mid))
    (loaded : (r.collaborators.loadType name).run mid = (.ok ty, mid')) :
    r.element .any place (.literal l) s =
      ((r.collaborators.coerce v ty).mapError (r.typedValueError place)).leaving
        (.literal (node.remember ty)) mid' := by
  have typed : ((r.targetType l).mapError (r.typedValueError place)).run mid =
      (.ok (some ty), mid') := by
    rw [Action.run_mapError, targetType, target, typeName, Action.run_bind, loaded]
    rfl
  rw [element, resolve, resolveLiteral]
  simp only [state_bind, evaluated, typed]
  rw [Action.leaving_run, Action.leaving_run]
  rcases ((r.collaborators.coerce v ty).mapError (r.typedValueError place)).run mid' with
    ⟨_ | _, _⟩ <;> rfl

/-- An element is converted as a typed literal is, where conversion into `any` keeps it. -/
theorem convertElement_of_typing (typing : r.Typing view name ty) (place : ArgPath) (v : Value)
    (same : SeenAlike view s t) :
    SideBySide (SeenAlike view) (Agree fun e f _ => e = f)
      (r.convertElement place ty v).run
      ((r.collaborators.coerce v ty).mapError (r.typedValueError place)).run s t := by
  by_cases any : ty = .any
  · obtain ⟨t', kept, same'⟩ := typing.keeps any v t
    have converted : ((r.collaborators.coerce v ty).mapError (r.typedValueError place)).run t =
        (.ok v, t') := by
      rw [Action.run_mapError, kept]
    subst any
    exact .of_runs rfl converted (.ok v s) (same.trans same'.symm)
  · have notAny : ¬ty.isAny := by
      cases ty with
      | any => exact absurd rfl any
      | _ => exact Bool.false_ne_true
    rw [convertElement, if_neg notAny]
    exact Action.sideBySide_mapError (typing.converts v s t same) fun _ _ => rfl

/-- A literal without a type that is converted as an element, and one with the type, have the same
outcome and the same flag. -/
theorem element_of_text (typing : r.Typing view name ty) (place : ArgPath) (text : String)
    (same : SeenAlike view s t) :
    SideBySide (SeenAlike view)
      (AgreesBy (fun e f => e.isDynamic = f.isDynamic) fun e f _ => e = f)
      (r.element ty place (.literal { text := some text }))
      (r.element .any place (.literal { text := some text, typeName := some name })) s t := by
  obtain ⟨⟨flags, outcome⟩, mids⟩ := evaluateLiteral_of_text { text := some text }
    { text := some text, typeName := some name } rfl typing.evaluates rfl same
  rcases left : r.evaluateLiteral { text := some text } s with ⟨⟨node, x⟩, mid⟩
  rcases right : r.evaluateLiteral { text := some text, typeName := some name } t with
    ⟨⟨node', y⟩, mid'⟩
  rw [left, right] at flags outcome mids
  obtain rfl : x = y := outcome
  cases x with
  | error stop =>
      exact .of_runs (element_error ty place left) (element_error .any place right)
        ⟨flags, .rfl_of _ fun _ _ => rfl⟩ mids
  | ok v =>
      obtain ⟨mid'', loaded, loads⟩ := typing.loads mid'
      have converted := convertElement_of_typing typing place v (mids.trans loads.symm)
      exact .of_runs (element_untyped ty place rfl rfl left) (element_typed place rfl rfl right loaded)
        ⟨flags, converted.result⟩ converted.state

/-! ### Arrays and lists -/

/-- The array of the texts, with the declared element type. -/
def typedArray (name : String) (texts : List String) : Raw :=
  .array (some name) none (texts.map fun text => .literal { text := some text })

/-- The list of the texts, each with the declared type. -/
def typedList (name : String) (texts : List String) : Raw :=
  .list (texts.map fun text => .literal { text := some text, typeName := some name })

theorem declaredElementType_of_trimmed (trimmed : Text.trim name = name) (nonblank : name ≠ "") :
    declaredElementType (some name) = some name := by
  rw [declaredElementType, Option.map_some, trimmed, Option.filter_some]
  simp [nonblank]

theorem elementType_declared {typeName : Option String}
    (declared : declaredElementType typeName = some name) (path : ArgPath) :
    r.elementType path typeName none =
      (r.collaborators.loadType name).mapError (.elementType (r.site path)) := by
  unfold elementType
  rw [declared]

theorem elements_of_texts (typing : r.Typing view name ty) (path : ArgPath) (texts : List String)
    (same : SeenAlike view s t) :
    SideBySide (SeenAlike view)
      (AgreesBy (List.Forall₂ fun e f => e.isDynamic = f.isDynamic) fun e f _ => e = f)
      (inTurn (fun i => r.element ty (path.index i)) 0
        (texts.map fun text => .literal { text := some text }))
      (inTurn (r.part path .list) 0
        (texts.map fun text => .literal { text := some text, typeName := some name })) s t := by
  refine inTurn_sideBySide (M := fun e f => ∃ text, e = .literal { text := some text } ∧
    f = .literal { text := some text, typeName := some name }) ?_ ?_ ?_ same
  · rintro _ _ ⟨text, rfl, rfl⟩
    rfl
  · exact List.forall₂_map_left_iff.2 (List.forall₂_map_right_iff.2
      (List.forall₂_same.2 fun text _ => ⟨text, rfl, rfl⟩))
  · rintro i - _ _ ⟨text, rfl, rfl⟩ s t same
    exact element_of_text typing (path.index (0 + i)) text same

/-- The two are resolved side by side. -/
theorem typedElements_sideBySide (typing : r.Typing view name ty) (trimmed : Text.trim name = name)
    (nonblank : name ≠ "") (path : ArgPath) (texts : List String) (same : SeenAlike view s t) :
    SideBySide (SeenAlike view)
      (fun a b _ => ∃ es fs outcome,
        a = ⟨.array (some name) (some ty) es, outcome.map (.array ty)⟩ ∧
        b = ⟨.list fs, outcome.map .list⟩ ∧
        es.map Raw.isDynamic = fs.map Raw.isDynamic ∧
        ∀ vs, outcome = Except.ok vs → vs.length = texts.length)
      (r.resolve path (typedArray name texts)) (r.resolve path (typedList name texts)) s t := by
  obtain ⟨s', loaded, loads⟩ := typing.loads s
  have elements := elements_of_texts typing path texts (loads.trans same)
  have elementType : (r.elementType path (some name) none).run s = (.ok ty, s') := by
    rw [elementType_declared (declaredElementType_of_trimmed trimmed nonblank), Action.run_mapError,
      loaded]
  rcases left : inTurn (fun i => r.element ty (path.index i)) 0
    (texts.map fun text => .literal { text := some text }) s' with ⟨⟨es, outcome⟩, mid⟩
  rcases right : inTurn (r.part path .list) 0
    (texts.map fun text => .literal { text := some text, typeName := some name }) t with
      ⟨⟨fs, outcome'⟩, mid'⟩
  have array : r.resolve path (typedArray name texts) s =
      (⟨.array (some name) (some ty) es, outcome.map (.array ty)⟩, mid) := by
    rw [← resolveElements_eq] at left
    rw [typedArray, resolve, state_bind, elementType]
    dsimp only
    rw [state_bind, left]
    rfl
  have list : r.resolve path (typedList name texts) t = (⟨.list fs, outcome'.map .list⟩, mid') := by
    have run := r.resolve_raw path .list
      (texts.map fun text => .literal { text := some text, typeName := some name }) t
    rw [right] at run
    exact run
  obtain ⟨⟨nodes, agree⟩, views⟩ := elements
  rw [left, right] at nodes agree views
  obtain rfl : outcome = outcome' := agree.eq
  refine .of_runs array list ⟨es, fs, outcome, rfl, rfl, ?_, ?_⟩ views
  · exact List.forall₂_eq_eq_eq ▸
      List.forall₂_map_left_iff.2 (List.forall₂_map_right_iff.2 nodes)
  · rintro vs rfl
    rw [length_of_inTurn_ok left, List.length_map]

/-! ### The texts that are evaluated -/

/-- What `view` shows of the state, and the evaluations among the calls. -/
def evaluations (view : σ → τ) (t : Traced σ) : τ × List Call :=
  (view t.state, t.calls.filter Call.isEvaluation)

theorem evaluations_after {call : Call} {s' : σ} (t : Traced σ) (silent : call.isEvaluation = false)
    (same : view s' = view t.state) :
    evaluations view ⟨s', t.calls ++ [call]⟩ = evaluations view t := by
  rw [evaluations, evaluations, same, List.filter_append, List.filter_singleton, silent, cond_false,
    List.append_nil]

theorem mirrors_evaluations {α : Type} (call : Call) {x : StateM σ α}
    (h : Mirrors (SeenAlike view) x x) :
    Mirrors (SeenAlike (evaluations view)) (Traced.after call x) (Traced.after call x) := by
  intro s t same
  obtain ⟨states, calls⟩ := Prod.mk.inj same
  have run := h s.state t.state states
  refine ⟨run.result, Prod.ext run.state ?_⟩
  change (s.calls ++ [call]).filter _ = (t.calls ++ [call]).filter _
  rw [List.filter_append, List.filter_append, calls]

/-- Nothing depends on the calls that are kept, so the evaluations among them may be shown too. -/
theorem Typing.traced (typing : r.Typing view name ty) :
    r.traced.Typing (evaluations view) name ty where
  loads t := by
    obtain ⟨s', loaded, same⟩ := typing.loads t.state
    have run : (r.traced.collaborators.loadType name).run t = _ := Traced.run_after loaded
    exact ⟨_, run, evaluations_after t rfl same⟩
  keeps any v t := by
    obtain ⟨s', kept, same⟩ := typing.keeps any v t.state
    have run : (r.traced.collaborators.coerce v ty).run t = _ := Traced.run_after kept
    exact ⟨_, run, evaluations_after t rfl same⟩
  evaluates text := mirrors_evaluations _ (typing.evaluates text)
  converts v := mirrors_evaluations _ (typing.converts v)

/-- **A type for an array and the same type for each of its elements come to the same.** -/
theorem typed_elements_agree (typing : r.Typing view name ty) (trimmed : Text.trim name = name)
    (nonblank : name ≠ "") (path : ArgPath) (texts : List String) (s : σ) :
    (r.calls path (typedArray name texts) s).filter Call.isEvaluation =
      (r.calls path (typedList name texts) s).filter Call.isEvaluation ∧
    ∃ (es fs : List Raw) (outcome : Except Stop (List Value)),
      (r.resolve path (typedArray name texts) s).1 =
        ⟨.array (some name) (some ty) es, outcome.map (.array ty)⟩ ∧
      (r.resolve path (typedList name texts) s).1 = ⟨.list fs, outcome.map .list⟩ ∧
      es.map Raw.isDynamic = fs.map Raw.isDynamic ∧
      ∀ vs, outcome = .ok vs → vs.length = texts.length := by
  have same : SeenAlike view s s := rfl
  have run := typedElements_sideBySide typing trimmed nonblank path texts same
  -- the evaluations made are part of what may be shown
  have start : SeenAlike (evaluations view) ⟨s, []⟩ ⟨s, []⟩ := rfl
  have trace := typedElements_sideBySide typing.traced trimmed nonblank path texts start
  exact ⟨(Prod.mk.inj trace.state).2, run.result⟩

/-- The second text is not a size, and the third one is not come to. -/
theorem typed_elements_agree_of_sizes :
    let r : Resolver Unit := {
      collaborators := Script.collaborators {
        types := Table.empty.insert "Size" .int
        evaluations := Table.empty.insert "$small" (.ok (.string "1"))
        coercions := (Table.empty.insert "1->int" (.ok (.int 1))).insert "b->int"
          (.error (.conversion "b" .int "not a number")) }
      bean := "owner", blueprint := ⟨0, none, .singleton, [], false, none, [], []⟩ }
    let texts := ["$small", "b", "c"]
    Text.trim "Size" = "Size" ∧ "Size" ≠ "" ∧ r.Typing id "Size" .int ∧
      (r.resolve (.root "p") (typedArray "Size" texts) ()).1.outcome = .error (.error
        (.typedValue ⟨r.origin, "p[1]"⟩ (.conversion "b" .int "not a number"))) ∧
      (r.calls (.root "p") (typedArray "Size" texts) ()).filter Call.isEvaluation =
        (r.calls (.root "p") (typedList "Size" texts) ()).filter Call.isEvaluation ∧
      ∃ (es fs : List Raw) (outcome : Except Stop (List Value)),
        (r.resolve (.root "p") (typedArray "Size" texts) ()).1 =
          ⟨.array (some "Size") (some .int) es, outcome.map (.array .int)⟩ ∧
        (r.resolve (.root "p") (typedList "Size" texts) ()).1 = ⟨.list fs, outcome.map .list⟩ ∧
        es.map Raw.isDynamic = fs.map Raw.isDynamic ∧
        ∀ vs, outcome = .ok vs → vs.length = texts.length := by
  intro r texts
  have trimmed : Text.trim "Size" = "Size" := by decide +kernel
  have nonblank : "Size" ≠ "" := by decide
  have typing : r.Typing id "Size" .int := Typing.of_kept (fun _ => rfl) nofun
  exact ⟨trimmed, nonblank, typing, rfl,
    typed_elements_agree typing trimmed nonblank (.root "p") texts ()⟩

end Resolver

end Wiring
