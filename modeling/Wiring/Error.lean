import Wiring.Ty

/-!
# Errors

Why a value could not be resolved.  Seven errors are raised by a resolver itself: they tell the
bean whose value was being resolved and the argument path (`Site`), and most of them carry the
error that caused them.  The others are raised by what a resolver works with.
-/

namespace Wiring

/-- The bean a value was resolved for. -/
structure Origin where
  bean : String
  /-- Where its blueprint was read from. -/
  resource : Option String
  deriving DecidableEq

/-- The bean as the start of a message. -/
def Origin.text (o : Origin) : String :=
  "Error creating bean with name '" ++ o.bean ++ "'" ++
    match o.resource with
    | some resource => " defined in " ++ resource
    | none => ""

/-- The place an error belongs to: a bean, and the path of the argument. -/
structure Site where
  origin : Origin
  arg : String
  deriving DecidableEq

/-- Why a value could not be resolved. -/
inductive Error where
  /-- No bean has the name a name reference gives. -/
  | invalidReference (site : Site) (name : String)
  /-- A reference leads to the parent container, and there is none. -/
  | noParent (site : Site) (reference : String)
  /-- The bean a reference leads to could not be had. -/
  | reference (site : Site) (name : String) (source : Error)
  /-- The element type of an array could not be loaded. -/
  | elementType (site : Site) (source : Error)
  /-- A nested blueprint could not be made into an object. -/
  | innerBean (site : Site) (name : String) (className : Option String) (source : Error)
  /-- A key or a value of a properties table is null. -/
  | nullProperty (site : Site)
  /-- A value could not be converted into its type. -/
  | typedValue (site : Site) (source : Error)
  | noSuchBean (name : String)
  | noSuchBeanOfType (ty : Ty)
  | noUniqueBean (ty : Ty) (candidates : List String)
  | beanCreation (name message : String)
  | typeLoad (name : String)
  | conversion (value : String) (target : Ty) (reason : String)
  | expression (expression reason : String)
  | other (message : String)
  deriving DecidableEq

namespace Error

/-- The place of an error a resolver raised. -/
def site? : Error → Option Site
  | invalidReference site _ | noParent site _ | reference site _ _ | elementType site _
  | innerBean site _ _ _ | nullProperty site | typedValue site _ => some site
  | _ => none

/-- The bean whose value was being resolved. -/
def origin? (e : Error) : Option Origin :=
  e.site?.map Site.origin

/-- The argument path. -/
def arg? (e : Error) : Option String :=
  e.site?.map Site.arg

/-- The error that caused this one. -/
def source? : Error → Option Error
  | reference _ _ source | elementType _ source | innerBean _ _ _ source | typedValue _ source =>
    some source
  | _ => none

/-- The error from this one down to the one without a cause. -/
def chain : Error → List Error
  | reference site name source => reference site name source :: source.chain
  | elementType site source => elementType site source :: source.chain
  | innerBean site name className source => innerBean site name className source :: source.chain
  | typedValue site source => typedValue site source :: source.chain
  | e => [e]

/-- The error at the end of the chain. -/
def rootCause : Error → Error
  | reference _ _ source | elementType _ source | innerBean _ _ _ source | typedValue _ source =>
    source.rootCause
  | e => e

/-- A class in the middle of a message; nothing where it is not known. -/
def ofType : Option String → String
  | some className => "of type [" ++ className ++ "] "
  | none => ""

/-- The wording of an error, without its cause. -/
def message : Error → String
  | invalidReference site name =>
    site.origin.text ++ ": Invalid bean name '" ++ name ++ "' in bean reference for " ++ site.arg
  | noParent site target =>
    site.origin.text ++ ": Cannot resolve reference to bean " ++ target ++
      " in parent factory: no parent factory available"
  | reference site name _ =>
    site.origin.text ++ ": Cannot resolve reference to bean '" ++ name ++ "' while setting " ++
      site.arg
  | elementType site _ => site.origin.text ++ ": Error resolving array type for " ++ site.arg
  | innerBean site name className _ =>
    site.origin.text ++ ": Cannot create inner bean '" ++ name ++ "' " ++ ofType className ++
      "while setting " ++ site.arg
  | nullProperty site =>
    site.origin.text ++ ": Error converting Properties key/value pair for " ++ site.arg ++
      ": resolved to null"
  | typedValue site _ =>
    site.origin.text ++ ": Error converting typed String value for " ++ site.arg
  | noSuchBean name => "No bean named '" ++ name ++ "' available"
  | noSuchBeanOfType ty => "No qualifying bean of type '" ++ ty.text ++ "' available"
  | noUniqueBean ty candidates =>
    "No qualifying bean of type '" ++ ty.text ++
      "' available: expected single matching bean but found " ++ toString candidates.length ++
      ": " ++ String.intercalate "," candidates
  | beanCreation name message => "Error creating bean with name '" ++ name ++ "': " ++ message
  | typeLoad name => "Cannot load type '" ++ name ++ "'"
  | conversion value target reason =>
    "Cannot convert value '" ++ value ++ "' to type '" ++ target.text ++ "': " ++ reason
  | expression text reason =>
    "Expression evaluation failed for '" ++ text ++ "': " ++ reason
  | other message => "Generic error: " ++ message

/-- The wordings of the chain, a line for each error. -/
def report (e : Error) : String :=
  String.intercalate "\n  caused by: " (e.chain.map message)

end Error

end Wiring
