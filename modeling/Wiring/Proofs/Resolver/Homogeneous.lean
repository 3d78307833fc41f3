import Wiring.Proofs.Coercion
import Wiring.Proofs.Resolver.Values
import Wiring.Script

/-!
# Resolver — arrays of one type

Where the values of an array are converted by coercion (`Resolver.Coerces`), the array holds one value
for each of its elements, in order, and **every one of them has the element type**
(`coercion_sound`), whatever kinds of raw values the elements are and whatever the container hands out
for them.
-/

namespace Wiring.Resolver

variable {σ : Type}

/-- Values are converted by coercion, as containers convert them (`Chain.collaborators`). -/
def Coerces (r : Resolver σ) : Prop :=
  ∀ v ty, r.collaborators.coerce v ty = Action.ofExcept (v.coerce ty)

variable {r : Resolver σ} {path : ArgPath} {ty : Ty}

/-- An element that is converted is coerced into the element type, also into `any`. -/
theorem coerce_of_convertElement (coerces : r.Coerces) {place : ArgPath} {v w : Value} {s s' : σ}
    (h : (r.convertElement place ty w).reach s = some (v, s')) : w.coerce ty = .ok v := by
  rw [convertElement] at h
  split at h
  next any =>
    cases h
    cases ty with
    | any => exact Value.coerce_of_inhabits (.any v)
    | _ => cases any
  next =>
    rw [Action.reach_mapError, coerces] at h
    exact (Action.ok_of_ofExcept (Action.run_of_reach h)).1

/-- Each element has a value: the coerced one of its own resolution. -/
theorem values_of_elements (coerces : r.Coerces) : ∀ {es : List Raw} {vs : List Value} {n : Nat}
    {s s' : σ}, reach (r.resolveElements path ty n es) s = some (vs, s') →
      vs.length = es.length ∧ ∀ i raw, es[i]? = some raw → ∃ mid w after v, vs[i]? = some v ∧
        r.visitElements? path ty n es s [i] = some (.value (path.index (n + i)) ty raw mid) ∧
        reach (r.resolve (path.index (n + i)) raw) mid = some (w, after) ∧ w.coerce ty = .ok v
  | [], _, _, _, _, h => by
      cases h
      exact ⟨rfl, nofun⟩
  | e :: es, _, n, s, _, h => by
      rw [reach_resolveElements_cons] at h
      obtain ⟨⟨v, mid⟩, first, h⟩ := Option.bind_eq_some_iff.1 h
      obtain ⟨⟨vs, after⟩, rest, h⟩ := Option.map_eq_some_iff.1 h
      cases h
      obtain ⟨⟨w, mid'⟩, resolved, converted⟩ := Option.bind_eq_some_iff.1 first
      obtain ⟨length, values⟩ := values_of_elements coerces rest
      refine ⟨congrArg (· + 1) length, fun i raw hi => ?_⟩
      cases i with
      | zero =>
          cases hi
          refine ⟨s, w, mid', v, rfl, ?_, resolved, coerce_of_convertElement coerces converted⟩
          rw [visitElements?, visit?]
          rfl
      | succ i =>
          obtain ⟨before, w', after', v', hv', visited, resolved', coerced⟩ := values i raw hi
          rw [Nat.add_right_comm] at visited resolved'
          refine ⟨before, w', after', v', hv', ?_, resolved', coerced⟩
          rw [visitElements?, first]
          exact visited

/-- **Coercion is sound, converts nothing twice, and makes arrays of one type.** -/
theorem coercion_sound (coerces : r.Coerces) (path : ArgPath) (s : σ) :
    (∀ (ty : Ty) (v w : Value), v.coerce ty = .ok w → w.Inhabits ty ∧ w.coerce ty = .ok w) ∧
    (∀ (ty : Ty) (v : Value), v.Inhabits ty → v.coerce ty = .ok v) ∧
    ∀ typeName remembered es v s',
      reach (r.resolve path (.array typeName remembered es)) s = some (v, s') →
        ∃ ty vs start, (r.elementType path typeName remembered).reach s = some (ty, start) ∧
          v = .array ty vs ∧ vs.length = es.length ∧ (∀ w ∈ vs, w.Inhabits ty) ∧
          ∀ i raw, es[i]? = some raw → ∃ mid w after v, vs[i]? = some v ∧
            r.visit? path .any (.array typeName remembered es) s [i] =
              some (.value (path.index i) ty raw mid) ∧
            reach (r.resolve (path.index i) raw) mid = some (w, after) ∧ w.coerce ty = .ok v := by
  refine ⟨fun ty v w h => ?_, fun ty v h => Value.coerce_of_inhabits h,
    fun typeName remembered es v s' h => ?_⟩
  · have inhabits := Value.inhabits_of_coerce h
    exact ⟨inhabits, Value.coerce_of_inhabits inhabits⟩
  · rw [reach_resolveArray] at h
    obtain ⟨⟨ty, start⟩, elementType, h⟩ := Option.bind_eq_some_iff.1 h
    obtain ⟨⟨vs, after⟩, elements, h⟩ := Option.map_eq_some_iff.1 h
    cases h
    obtain ⟨length, values⟩ := values_of_elements coerces elements
    simp only [Nat.zero_add] at values
    refine ⟨ty, vs, start, elementType, rfl, length, fun w hw => ?_, fun i raw hi => ?_⟩
    · obtain ⟨i, hi⟩ := List.mem_iff_getElem?.1 hw
      have bound : i < es.length := length ▸ (List.getElem?_eq_some_iff.1 hi).1
      obtain ⟨_, _, _, v, hv, -, -, coerced⟩ := values i _ (List.getElem?_eq_getElem bound)
      rw [hi] at hv
      cases hv
      exact Value.inhabits_of_coerce coerced
    · obtain ⟨mid, w, after, v, hv, visited, resolved, coerced⟩ := values i raw hi
      refine ⟨mid, w, after, v, hv, ?_, resolved, coerced⟩
      cases es with
      | nil => cases hi
      | cons e es =>
          rw [visit?, elementType]
          · exact visited
          · exact nofun

/-- Of the three elements, a literal of another type and a nested blueprint have strings for values,
which are read; the third has the element type. -/
theorem coercion_sound_of_sizes :
    let r : Resolver Unit := {
      collaborators := { Script.collaborators {
        types := (Table.empty.insert "Size" .int).insert "Text" .string
        created := Table.empty.insert "T" (.ok (.value (.string "+3"))) } with
        coerce := fun v ty => Action.ofExcept (v.coerce ty) }
      bean := "owner", blueprint := ⟨0, none, .singleton, [], false, none, [], []⟩ }
    let es : List Raw := [.literal { text := some " 7", typeName := some "Text" },
      .nested 0 ⟨1, some "T", .singleton, [], false, none, [], []⟩, .value (.int 2)]
    let read := reach (r.resolve (.root "p") (.array (some "Size") none es)) ()
    r.Coerces ∧ (Value.string " 7").coerce .int = .ok (.int 7) ∧ (Value.int 7).Inhabits .int ∧
      (Value.int 7).coerce .int = .ok (.int 7) ∧
      read = some (.array .int [.int 7, .int 3, .int 2], ()) ∧
      ∀ w ∈ [Value.int 7, .int 3, .int 2], w.Inhabits .int := by
  intro r es read
  have coerces : r.Coerces := fun _ _ => rfl
  have seven : (Value.string " 7").coerce .int = .ok (.int 7) := rfl
  have values : read = some (.array .int [.int 7, .int 3, .int 2], ()) := rfl
  obtain ⟨sound, kept, arrays⟩ := coercion_sound coerces (.root "p") ()
  have inhabits := (sound .int _ _ seven).1
  obtain ⟨ty, vs, _, _, same, -, homogeneous, -⟩ := arrays _ _ _ _ _ values
  cases same
  exact ⟨coerces, seven, inhabits, kept _ _ inhabits, values, homogeneous⟩

end Wiring.Resolver
