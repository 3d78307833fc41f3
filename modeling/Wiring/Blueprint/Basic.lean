import Wiring.Tagged
import Wiring.Text.Hex
import Wiring.Value.Basic

/-!
# Blueprints

A blueprint describes how an object is made: its class, its scope, and the raw values of its
arguments and properties.  A raw value (`Raw`) is what stands in a blueprint before resolution:
literals, references to other beans, nested blueprints, and collections of these.

Two things in a raw value are not text but memory: a literal's dynamic flag, and the types that
literals and arrays remember once they are known.  Nested blueprints carry a cell number: what is
written in one place and used in several has one cell, and what is remembered inside it is
remembered in all of them.
-/

namespace Wiring

/-- How long an object lives. -/
inductive Scope where
  | singleton
  | prototype
  | custom (name : String)
  deriving DecidableEq, Inhabited

namespace Scope

/-- The name of the scope. -/
def text : Scope → String
  | singleton => "singleton"
  | prototype => "prototype"
  | custom name => name

def isSingleton : Scope → Bool
  | singleton => true
  | _ => false

def isPrototype : Scope → Bool
  | prototype => true
  | _ => false

/-- The scope as a case of its kind. -/
def tagged : Scope → Tagged
  | singleton => ⟨"Singleton", none⟩
  | prototype => ⟨"Prototype", none⟩
  | custom name => ⟨"Custom", some name⟩

/-- The scope that is written as the given case. -/
def ofTagged? : Tagged → Option Scope
  | ⟨"Singleton", none⟩ => some singleton
  | ⟨"Prototype", none⟩ => some prototype
  | ⟨"Custom", some name⟩ => some (custom name)
  | _ => none

theorem ofTagged?_tagged (scope : Scope) : ofTagged? scope.tagged = some scope := by
  cases scope <;> rfl

end Scope

/-- A text in a blueprint, with the type it is meant for if it has one. -/
structure Literal where
  /-- The text; without one the literal stands for null. -/
  text : Option String
  /-- The declared name of the type. -/
  typeName : Option String := none
  /-- The type, once it is known. -/
  target : Option Ty := none
  /-- Evaluation has been seen to change the text. -/
  dynamic : Bool := false
  deriving DecidableEq, Inhabited

namespace Literal

/-- The literal, known to be changed by evaluation. -/
def markDynamic (l : Literal) : Literal :=
  { l with dynamic := true }

/-- The literal with its type known; a type it knows already stays. -/
def remember (l : Literal) (ty : Ty) : Literal :=
  { l with target := some (l.target.getD ty) }

end Literal

/-- What a reference refers to. -/
inductive RefTarget where
  | name (name : String)
  | type (ty : Ty)
  deriving DecidableEq

/-- A reference to another bean. -/
structure Reference where
  target : RefTarget
  /-- The bean is looked up in the parent container. -/
  inParent : Bool := false
  deriving DecidableEq

namespace Reference

/-- The name of the bean, or of its type. -/
def declaredName (r : Reference) : String :=
  match r.target with
  | .name name => name
  | .type ty => ty.text

/-- The reference as messages show it. -/
def text (r : Reference) : String :=
  "<" ++ r.declaredName ++ ">"

end Reference

/-- An injection point: the container chooses a bean of the type. -/
structure Dependency where
  name : String
  ty : Ty
  /-- Without a bean of the type, injection fails. -/
  required : Bool := true
  deriving DecidableEq

/-- How an object is made, from values of the type `ρ`. -/
structure BlueprintOf (ρ : Type) where
  /-- What tells the blueprint from others; copies keep it. -/
  id : Nat
  className : Option String
  scope : Scope
  /-- The beans to be made before this one. -/
  dependsOn : List String
  /-- The object is no concern of post-processing. -/
  synthetic : Bool
  /-- Where the blueprint was read from. -/
  resource : Option String
  args : List ρ
  properties : List (String × ρ)

/-- A value in a blueprint, before resolution. -/
inductive Raw where
  | null
  | literal (l : Literal)
  | value (v : Value)
  | reference (r : Reference)
  /-- The name of a bean, injected as text. -/
  | nameReference (name : String)
  | dependency (d : Dependency)
  /-- A nested blueprint with a name of its own. -/
  | holder (name : String) (aliases : List String) (cell : Nat) (blueprint : BlueprintOf Raw)
  | nested (cell : Nat) (blueprint : BlueprintOf Raw)
  | array (typeName : Option String) (elementTy : Option Ty) (elements : List Raw)
  | list (elements : List Raw)
  | set (elements : List Raw)
  | map (entries : List (Raw × Raw))
  | properties (entries : List (Literal × Literal))

instance : Inhabited Raw := ⟨.null⟩

/-- How an object is made. -/
abbrev Blueprint := BlueprintOf Raw

namespace Raw

/-- The name of the raw value's kind. -/
def kind : Raw → String
  | null => "null"
  | literal _ => "literal"
  | value _ => "opaque"
  | reference _ => "bean-ref"
  | nameReference _ => "bean-name-ref"
  | dependency _ => "dependency"
  | holder _ _ _ _ => "holder"
  | nested _ _ => "nested"
  | array _ _ _ => "array"
  | list _ => "list"
  | set _ => "set"
  | map _ => "map"
  | properties _ => "properties"

end Raw

namespace BlueprintOf

variable {ρ : Type}

/-- The text of the blueprint's identity. -/
def token (b : BlueprintOf ρ) : String :=
  Text.hex b.id

def isSingleton (b : BlueprintOf ρ) : Bool :=
  b.scope.isSingleton

def isPrototype (b : BlueprintOf ρ) : Bool :=
  b.scope.isPrototype

/-- The first property of the given name. -/
def property? (b : BlueprintOf ρ) (name : String) : Option ρ :=
  b.properties.lookup name

end BlueprintOf

end Wiring
