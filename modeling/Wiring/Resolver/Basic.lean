import Wiring.ArgPath
import Wiring.Collaborators
import Wiring.Naming

/-!
# Resolver — errors and texts

A resolver turns the raw values of one bean's blueprint into values.  Here are the errors it raises
in the bean's name, and the evaluation of texts and literals.  A literal whose text evaluates to
anything but itself is marked dynamic, also when resolution fails later.
-/

namespace Wiring

/-- What resolves the raw values of one bean. -/
structure Resolver (σ : Type) where
  collaborators : Collaborators σ
  /-- The name of the bean. -/
  bean : String
  blueprint : Blueprint
  naming : Naming := {}

namespace Resolver

variable {σ : Type}

/-- The bean, as errors tell it. -/
def origin (r : Resolver σ) : Origin :=
  ⟨r.bean, r.blueprint.resource⟩

/-- The place of an error at the path. -/
def site (r : Resolver σ) (path : ArgPath) : Site :=
  ⟨r.origin, path.text⟩

/-- The error for a value that could not be converted. -/
def typedValueError (r : Resolver σ) (path : ArgPath) (source : Error) : Error :=
  .typedValue (r.site path) source

/-- The value of a text. -/
def evaluateText (r : Resolver σ) (text : String) : Action σ Value :=
  r.collaborators.evaluate text r.blueprint

/-- The name a text evaluates to. -/
def evaluateName (r : Resolver σ) (name : String) : Action σ String := do
  return (← r.evaluateText name).text

/-- The literal after its text has been seen to have the value. -/
def observed (l : Literal) (text : String) (v : Value) : Literal :=
  if v.string? = some text then l else l.markDynamic

/-- The value of a literal's text, null for a literal without one. -/
def evaluateLiteral (r : Resolver σ) (l : Literal) : StateM σ (Resolved Literal Value) := do
  match l.text with
  | none => return ⟨l, .ok .null⟩
  | some text =>
    match ← (r.evaluateText text).run with
    | .ok v => return ⟨observed l text v, .ok v⟩
    | .error stop => return ⟨l, .error stop⟩

/-- The type a literal is meant for: the one it remembers, or else the one its declared name
loads. -/
def targetType (r : Resolver σ) (l : Literal) : Action σ (Option Ty) :=
  match l.target, l.typeName with
  | some ty, _ => pure (some ty)
  | none, some name => do return some (← r.collaborators.loadType name)
  | none, none => pure none

/-- The value of a literal, converted into its type if it has one.  The type is remembered once it
is loaded, also when the conversion fails. -/
def resolveLiteral (r : Resolver σ) (path : ArgPath) (l : Literal) :
    StateM σ (Resolved Literal Value) := do
  let evaluated ← r.evaluateLiteral l
  match evaluated.outcome with
  | .error stop => return ⟨evaluated.node, .error stop⟩
  | .ok v =>
    match ← ((r.targetType l).mapError (r.typedValueError path)).run with
    | .error stop => return ⟨evaluated.node, .error stop⟩
    | .ok none => return ⟨evaluated.node, .ok v⟩
    | .ok (some ty) =>
      ((r.collaborators.coerce v ty).mapError (r.typedValueError path)).leaving
        (evaluated.node.remember ty)

/-- The entries of a properties table.  Its texts are evaluated and never converted; a key or a
value that is null is an error, found once both are evaluated. -/
def resolveProperties (r : Resolver σ) (path : ArgPath) :
    List (Literal × Literal) → StateM σ (Resolved (List (Literal × Literal)) (List (Value × Value)))
  | [] => return ⟨[], .ok []⟩
  | (k, v) :: es => do
    let key ← r.evaluateLiteral k
    match key.outcome with
    | .error stop => return ⟨(key.node, v) :: es, .error stop⟩
    | .ok kv =>
      let value ← r.evaluateLiteral v
      match value.outcome with
      | .error stop => return ⟨(key.node, value.node) :: es, .error stop⟩
      | .ok vv =>
        if kv.isNull || vv.isNull then
          return ⟨(key.node, value.node) :: es, .error (.error (.nullProperty (r.site path)))⟩
        else
          let rest ← r.resolveProperties path es
          return ⟨(key.node, value.node) :: rest.node, rest.outcome.map ((kv, vv) :: ·)⟩

/-- Each value is the string it was evaluated from. -/
def unchanged (items : List String) (values : List Value) : Bool :=
  (items.zip values).all fun (s, v) => v.string? == some s

/-- A value that stands in a blueprint as it is.  A string is evaluated; so are the items of a
string array, which stays a string array unless one of them changes.  Strings deeper inside other
values are not looked at. -/
def resolveValue (r : Resolver σ) : Value → Action σ Value
  | .string text => r.evaluateText text
  | .stringArray items => do
    let values ← items.mapM r.evaluateText
    return if unchanged items values then .stringArray items else .array .any values
  | v => pure v

end Resolver

end Wiring
