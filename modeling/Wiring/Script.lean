import Wiring.Collaborators
import Wiring.Table
import Wiring.Value.Text

/-!
# Scripts — collaborators with written answers

Collaborators whose answers are written down beforehand (`Script.collaborators`).  Where nothing is
written, a bean is missing, a type does not load, a text stands for itself, a value stays as it is,
and an object is made of its name.
-/

namespace Wiring

/-- A written answer: a result or an error. -/
abbrev Reply (α : Type) := Except Error α

/-- The written answers of a container's look-ups. -/
structure Beans where
  /-- The names that are known. -/
  contains : List String := []
  beans : Table (Reply Managed) := .empty
  /-- The named bean for the text of a type. -/
  byType : Table (String × Reply Managed) := .empty

/-- What merging changes in a nested blueprint. -/
structure Merging where
  className : Option (Option String) := none
  scope : Option Scope := none
  dependsOn : Option (List String) := none
  synthetic : Option Bool := none

/-- The written answers of collaborators. -/
structure Script extends Beans where
  parent : Option Beans := none
  /-- The candidates and the value for an injection point. -/
  dependencies : Table (List String × Reply Value) := .empty
  inUse : List String := []
  merging : Reply Merging := .ok {}
  /-- What is made of a class; a blueprint without one has the class `-`. -/
  created : Table (Reply Managed) := .empty
  products : Table (Reply Managed) := .empty
  types : Table Ty := .empty
  evaluations : Table (Reply Value) := .empty
  /-- The converted value, by the text of the value, an arrow and the text of the type. -/
  coercions : Table (Reply Value) := .empty

namespace Script

/-- The written answer under a key, or another one. -/
def replyOr {α : Type} (t : Table (Reply α)) (key : String) (missing : Reply α) :
    Action Unit α :=
  Action.ofExcept ((t.get? key).getD missing)

/-- The named bean of a type. -/
def namedBean (beans : Beans) (ty : Ty) : Action Unit NamedBean :=
  match beans.byType.get? ty.text with
  | some (name, reply) => do return ⟨name, ← Action.ofExcept reply⟩
  | none => Action.fail (.noSuchBeanOfType ty)

/-- The look-ups of a container. -/
def lookups (beans : Beans) : Lookup Unit where
  containsBean name := return beans.contains.contains name
  getByName name := replyOr beans.beans name (.error (.noSuchBean name))
  getByType ty := do return (← namedBean beans ty).bean

/-- The class of a blueprint, as the script knows it. -/
def classKey (b : Blueprint) : String :=
  b.className.getD "-"

/-- A nested blueprint with what merging changes in it. -/
def merge (m : Merging) (nested : Blueprint) : Blueprint :=
  { nested with
    className := m.className.getD nested.className
    scope := m.scope.getD nested.scope
    dependsOn := m.dependsOn.getD nested.dependsOn
    synthetic := m.synthetic.getD nested.synthetic }

/-- The value written for an injection point; without one it is null. -/
def select (s : Script) (d : Dependency) : Action Unit Selection :=
  match s.dependencies.get? d.name with
  | some (candidates, reply) => do return ⟨← Action.ofExcept reply, candidates⟩
  | none => pure ⟨.null, []⟩

/-- The collaborators that answer as it is written. -/
def collaborators (s : Script) : Collaborators Unit where
  toLookup := lookups s.toBeans
  parent := return s.parent.map lookups
  resolveNamedByType ty := namedBean s.toBeans ty
  resolveDependency d _ := s.select d
  registerDependent _ _ := return
  registerContained _ _ := return
  isNameInUse name := return s.inUse.contains name
  namesInUse _ := s.inUse.length
  mergeBlueprint _ nested _ := do return merge (← Action.ofExcept s.merging) nested
  createObject name b :=
    replyOr s.created (classKey b) (.ok (.value (.string ("made:" ++ name))))
  unwrapProduct factory name _ := replyOr s.products name (.ok (.value factory))
  loadType name :=
    match s.types.get? name with
    | some ty => pure ty
    | none => Action.fail (.typeLoad name)
  evaluate text _ := replyOr s.evaluations text (.ok (.string text))
  coerce v ty := replyOr s.coercions (v.text ++ "->" ++ ty.text) (.ok v)

end Script

end Wiring
