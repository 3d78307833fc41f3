import Wiring.Blueprint.Basic

/-!
# Blueprints — memory

A blueprint may be resolved several times, and while it is being resolved.  `absorb` adds to a
blueprint, or to a raw value, what a later copy of it has come to remember: a literal is dynamic
when either is, and a type that is known stays.  A nested blueprint is left alone: what is made of
it is made of a copy.
-/

namespace Wiring

/-- The literal with what a later copy of it remembers. -/
def Literal.absorb (l later : Literal) : Literal :=
  { l with target := l.target.or later.target, dynamic := l.dynamic || later.dynamic }

namespace Raw

/-- The literals of a properties table with what later copies of them remember. -/
def absorbLiterals : List (Literal × Literal) → List (Literal × Literal) → List (Literal × Literal)
  | (k, v) :: es, (k', v') :: fs => (k.absorb k', v.absorb v') :: absorbLiterals es fs
  | es, _ => es

mutual

/-- The raw value with what a later copy of it remembers, outside nested blueprints. -/
def absorb : Raw → Raw → Raw
  | literal l, r => match r with | literal m => literal (l.absorb m) | _ => literal l
  | array name ty es, r =>
    match r with
    | array _ ty' fs => array name (ty.or ty') (absorbAll es fs)
    | _ => array name ty es
  | list es, r => match r with | list fs => list (absorbAll es fs) | _ => list es
  | set es, r => match r with | set fs => set (absorbAll es fs) | _ => set es
  | map es, r => match r with | map fs => map (absorbEntries es fs) | _ => map es
  | properties es, r =>
    match r with
    | properties fs => properties (absorbLiterals es fs)
    | _ => properties es
  | r, _ => r
termination_by structural r => r

/-- The elements with what later copies of them remember. -/
def absorbAll : List Raw → List Raw → List Raw
  | [], _ => []
  | e :: es, fs =>
    match fs with
    | [] => e :: es
    | f :: fs => absorb e f :: absorbAll es fs
termination_by structural es => es

/-- The entries with what later copies of them remember. -/
def absorbEntries : List (Raw × Raw) → List (Raw × Raw) → List (Raw × Raw)
  | [], _ => []
  | (k, v) :: es, fs =>
    match fs with
    | [] => (k, v) :: es
    | (k', v') :: fs => (absorb k k', absorb v v') :: absorbEntries es fs
termination_by structural es => es

end

/-- The properties with what later copies of them remember. -/
def absorbProperties : List (String × Raw) → List (String × Raw) → List (String × Raw)
  | (name, r) :: ps, (_, r') :: qs => (name, r.absorb r') :: absorbProperties ps qs
  | ps, _ => ps

end Raw

/-- The blueprint with what a later copy of it remembers. -/
def BlueprintOf.absorb (b later : Blueprint) : Blueprint :=
  { b with
    args := Raw.absorbAll b.args later.args
    properties := Raw.absorbProperties b.properties later.properties }

end Wiring
