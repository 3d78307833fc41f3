import Wiring.Blueprint.Memory
import Wiring.Resolver.Tree

/-!
# Blueprints — forgetting types

`Raw.forget` empties the types that literals and arrays remember, inside nested blueprints too; the
identities of blueprints, and what literals remember of being dynamic, stay.

`Raw.Current load` says that what is remembered is what would be loaded: a literal remembers the
type that its declared name loads, and an array the type that its declared name loads, or `any`
without one.  Nested blueprints remember no types.  **What has forgotten everything is current**
(`current_of_forgotten`), whatever is loaded.
-/

namespace Wiring

/-- The literal without the type it remembers. -/
def Literal.forget (l : Literal) : Literal :=
  { l with target := none }

namespace Raw

mutual

/-- The raw value without the types it remembers. -/
def forget : Raw → Raw
  | literal l => literal l.forget
  | holder name aliases cell b => holder name aliases cell (forgetBlueprint b)
  | nested cell b => nested cell (forgetBlueprint b)
  | array typeName _ es => array typeName none (forgetAll es)
  | list es => list (forgetAll es)
  | set es => set (forgetAll es)
  | map es => map (forgetEntries es)
  | properties es => properties (es.map fun e => (e.1.forget, e.2.forget))
  | r => r
termination_by structural r => r

/-- The blueprint without the types it remembers. -/
def forgetBlueprint : BlueprintOf Raw → BlueprintOf Raw
  | ⟨id, className, scope, dependsOn, synthetic, resource, args, props⟩ =>
    ⟨id, className, scope, dependsOn, synthetic, resource, forgetAll args, forgetProperties props⟩
termination_by structural b => b

/-- The elements without the types they remember. -/
def forgetAll : List Raw → List Raw
  | [] => []
  | e :: es => forget e :: forgetAll es
termination_by structural es => es

/-- The entries without the types they remember. -/
def forgetEntries : List (Raw × Raw) → List (Raw × Raw)
  | [] => []
  | (k, v) :: es => (forget k, forget v) :: forgetEntries es
termination_by structural es => es

/-- The properties without the types they remember. -/
def forgetProperties : List (String × Raw) → List (String × Raw)
  | [] => []
  | (name, r) :: ps => (name, forget r) :: forgetProperties ps
termination_by structural ps => ps

end

end Raw

/-- The literal remembers no type, or the one that its declared name loads. -/
def Literal.Current (load : String → Except Error Ty) (l : Literal) : Prop :=
  ∀ ty, l.target = some ty → ∃ name, l.typeName = some name ∧ load name = .ok ty

/-- The element type is the one that the declared name loads, or `any` without one. -/
def IsElementType (load : String → Except Error Ty) (typeName : Option String) (ty : Ty) : Prop :=
  match Resolver.declaredElementType typeName with
  | some name => load name = .ok ty
  | none => ty = .any

namespace Raw

mutual

/-- The types that are remembered are those that would be loaded. -/
def Current (load : String → Except Error Ty) : Raw → Prop
  | literal l => l.Current load
  | holder _ _ _ b => forgetBlueprint b = b
  | nested _ b => forgetBlueprint b = b
  | array typeName known es =>
    (∀ ty, known = some ty → IsElementType load typeName ty) ∧ CurrentAll load es
  | list es => CurrentAll load es
  | set es => CurrentAll load es
  | map es => CurrentEntries load es
  | _ => True
termination_by structural r => r

/-- The types that the elements remember are those that would be loaded. -/
def CurrentAll (load : String → Except Error Ty) : List Raw → Prop
  | [] => True
  | e :: es => Current load e ∧ CurrentAll load es
termination_by structural es => es

/-- The types that the keys and values remember are those that would be loaded. -/
def CurrentEntries (load : String → Except Error Ty) : List (Raw × Raw) → Prop
  | [] => True
  | (k, v) :: es => Current load k ∧ Current load v ∧ CurrentEntries load es
termination_by structural es => es

end

variable {load load' : String → Except Error Ty}

/-! ### What has forgotten everything -/

mutual

/-- **What has forgotten everything is current.** -/
theorem current_of_forgotten : ∀ {r : Raw}, r.forget = r → r.Current load
  | literal l, h => by
      rw [forget] at h
      have hl := literal.inj h
      intro ty hty
      rw [← hl] at hty
      cases hty
  | holder _ _ _ b, h => by
      rw [forget] at h
      exact (holder.inj h).2.2.2
  | nested _ b, h => by
      rw [forget] at h
      exact (nested.inj h).2
  | array _ _ es, h => by
      rw [forget] at h
      obtain ⟨-, rfl, hes⟩ := array.inj h
      exact ⟨fun _ => nofun, currentAll_of_forgotten hes⟩
  | list es, h => by
      rw [forget] at h
      exact currentAll_of_forgotten (list.inj h)
  | set es, h => by
      rw [forget] at h
      exact currentAll_of_forgotten (set.inj h)
  | map es, h => by
      rw [forget] at h
      exact currentEntries_of_forgotten (map.inj h)
  | null, _ | value _, _ | reference _, _ | nameReference _, _ | dependency _, _
  | properties _, _ => trivial

theorem currentAll_of_forgotten : ∀ {es : List Raw}, forgetAll es = es → CurrentAll load es
  | [], _ => trivial
  | e :: es, h => by
      rw [forgetAll] at h
      obtain ⟨he, hes⟩ := List.cons.inj h
      exact ⟨current_of_forgotten he, currentAll_of_forgotten hes⟩

theorem currentEntries_of_forgotten : ∀ {es : List (Raw × Raw)}, forgetEntries es = es →
    CurrentEntries load es
  | [], _ => trivial
  | (k, v) :: es, h => by
      rw [forgetEntries] at h
      obtain ⟨he, hes⟩ := List.cons.inj h
      obtain ⟨hk, hv⟩ := Prod.mk.inj he
      exact ⟨current_of_forgotten hk, current_of_forgotten hv, currentEntries_of_forgotten hes⟩

end

/-! ### When more types can be loaded -/

theorem isElementType_mono (more : ∀ {name ty}, load name = .ok ty → load' name = .ok ty)
    {typeName : Option String} {ty : Ty} (h : IsElementType load typeName ty) :
    IsElementType load' typeName ty := by
  unfold IsElementType at h ⊢
  split
  next name hname => rw [hname] at h; exact more h
  next hname => rw [hname] at h; exact h

mutual

/-- What is current stays current when more types can be loaded. -/
theorem Current.mono (more : ∀ {name ty}, load name = .ok ty → load' name = .ok ty) :
    ∀ {r : Raw}, r.Current load → r.Current load'
  | literal _, h => fun ty hty => by
      obtain ⟨name, hname, hload⟩ := h ty hty
      exact ⟨name, hname, more hload⟩
  | holder _ _ _ _, h | nested _ _, h => h
  | array _ _ _, ⟨known, elements⟩ =>
      ⟨fun ty hty => isElementType_mono more (known ty hty), CurrentAll.mono more elements⟩
  | list _, h | set _, h => CurrentAll.mono more (show CurrentAll load _ from h)
  | map _, h => CurrentEntries.mono more (show CurrentEntries load _ from h)
  | null, _ | value _, _ | reference _, _ | nameReference _, _ | dependency _, _
  | properties _, _ => trivial

theorem CurrentAll.mono (more : ∀ {name ty}, load name = .ok ty → load' name = .ok ty) :
    ∀ {es : List Raw}, CurrentAll load es → CurrentAll load' es
  | [], _ => trivial
  | _ :: _, ⟨he, hes⟩ => ⟨Current.mono more he, CurrentAll.mono more hes⟩

theorem CurrentEntries.mono (more : ∀ {name ty}, load name = .ok ty → load' name = .ok ty) :
    ∀ {es : List (Raw × Raw)}, CurrentEntries load es → CurrentEntries load' es
  | [], _ => trivial
  | (_, _) :: _, ⟨hk, hv, hes⟩ =>
    ⟨Current.mono more hk, Current.mono more hv, CurrentEntries.mono more hes⟩

end

end Raw

end Wiring
