import Wiring.Blueprint.Basic
import Wiring.Ordered

/-!
# Blueprints — places and shared cells

A path of numbers leads to a place in a raw value: the position of an element, the position of an
entry and then 0 for its key or 1 for its value, the position of a nested blueprint's property.
`Raw.at?` reads the place, `Raw.editAt` changes it.

A change below a nested blueprint belongs to its cell.  `Raw.cellOn?` finds the innermost cell on a
path, and `Raw.refresh` puts a cell's new blueprint wherever the cell is used.
-/

namespace Wiring

/-- The list with `f` applied at a position. -/
def editNth {α : Type} (f : α → α) : Nat → List α → List α
  | _, [] => []
  | 0, x :: xs => f x :: xs
  | i + 1, x :: xs => x :: editNth f i xs

namespace Raw

/-- The literal a change makes of a literal. -/
def onLiteral (f : Raw → Raw) (l : Literal) : Literal :=
  match f (literal l) with
  | literal l' => l'
  | _ => l

/-- The raw value with `f` applied at the place a path leads to; unchanged if it leads nowhere. -/
def editAt (f : Raw → Raw) : List Nat → Raw → Raw
  | [], r => f r
  | i :: path, r =>
    match r with
    | list es => list (editNth (editAt f path) i es)
    | set es => set (editNth (editAt f path) i es)
    | array name ty es => array name ty (editNth (editAt f path) i es)
    | holder name aliases cell b =>
      holder name aliases cell
        { b with properties := editNth (fun p => (p.1, editAt f path p.2)) i b.properties }
    | nested cell b =>
      nested cell { b with properties := editNth (fun p => (p.1, editAt f path p.2)) i b.properties }
    | map es =>
      match path with
      | [] => r
      | j :: path =>
        map (editNth (fun e => if j = 0 then (editAt f path e.1, e.2)
          else (e.1, editAt f path e.2)) i es)
    | properties es =>
      match path with
      | [] => r
      | j :: _ =>
        properties (editNth (fun e => if j = 0 then (onLiteral f e.1, e.2)
          else (e.1, onLiteral f e.2)) i es)
    | r => r

/-- The place a path leads to. -/
def at? : List Nat → Raw → Option Raw
  | [], r => some r
  | i :: path, r =>
    match r with
    | list es | set es | array _ _ es => es[i]?.bind (at? path)
    | holder _ _ _ b | nested _ b => b.properties[i]?.bind fun p => at? path p.2
    | map es =>
      match path with
      | [] => none
      | j :: path => es[i]?.bind fun e => at? path (if j = 0 then e.1 else e.2)
    | properties es =>
      match path with
      | [] => none
      | j :: _ => es[i]?.map fun e => literal (if j = 0 then e.1 else e.2)
    | _ => none

/-- The innermost cell a path goes into, with its blueprint. -/
def cellOn? : List Nat → Raw → Option (Nat × Blueprint)
  | [], _ => none
  | i :: path, r =>
    match r with
    | list es | set es | array _ _ es => es[i]?.bind (cellOn? path)
    | holder _ _ cell b | nested cell b =>
      (b.properties[i]?.bind fun p => cellOn? path p.2).or (some (cell, b))
    | map es =>
      match path with
      | [] => none
      | j :: path => es[i]?.bind fun e => cellOn? path (if j = 0 then e.1 else e.2)
    | _ => none

mutual

/-- The raw value with `new` in every use of the cell. -/
def refresh (cell : Nat) (new : Blueprint) : Raw → Raw
  | holder name aliases c b =>
    holder name aliases c (if c = cell then new else refreshBlueprint cell new b)
  | nested c b => nested c (if c = cell then new else refreshBlueprint cell new b)
  | array name ty es => array name ty (refreshAll cell new es)
  | list es => list (refreshAll cell new es)
  | set es => set (refreshAll cell new es)
  | map es => map (refreshEntries cell new es)
  | r => r
termination_by structural r => r

/-- The blueprint with `new` in every use of the cell inside it. -/
def refreshBlueprint (cell : Nat) (new : Blueprint) : BlueprintOf Raw → BlueprintOf Raw
  | ⟨id, className, scope, dependsOn, synthetic, resource, args, props⟩ =>
    ⟨id, className, scope, dependsOn, synthetic, resource, refreshAll cell new args,
      refreshProperties cell new props⟩
termination_by structural b => b

/-- The elements with `new` in every use of the cell. -/
def refreshAll (cell : Nat) (new : Blueprint) : List Raw → List Raw
  | [] => []
  | r :: rs => refresh cell new r :: refreshAll cell new rs
termination_by structural rs => rs

/-- The entries with `new` in every use of the cell. -/
def refreshEntries (cell : Nat) (new : Blueprint) : List (Raw × Raw) → List (Raw × Raw)
  | [] => []
  | (k, v) :: es => (refresh cell new k, refresh cell new v) :: refreshEntries cell new es
termination_by structural es => es

/-- The properties with `new` in every use of the cell. -/
def refreshProperties (cell : Nat) (new : Blueprint) : List (String × Raw) → List (String × Raw)
  | [] => []
  | (name, r) :: ps => (name, refresh cell new r) :: refreshProperties cell new ps
termination_by structural ps => ps

end

/-- What a blueprint says of its object outside its values does not depend on the cells. -/
theorem refreshBlueprint_eq (cell : Nat) (new b : Blueprint) :
    refreshBlueprint cell new b =
      { b with
        args := refreshAll cell new b.args
        properties := refreshProperties cell new b.properties } := by
  cases b
  rfl

end Raw

/-- The blueprints an input has named, and the numbers still to be given out. -/
structure Shelf where
  /-- The identity of the next blueprint. -/
  nextId : Nat := 1
  /-- The next cell. -/
  nextCell : Nat := 0
  /-- The blueprints by their labels, each with its cell. -/
  labelled : List (String × Nat × Blueprint) := []

namespace Shelf

/-- A new identity. -/
def takeId : StateM Shelf Nat :=
  modifyGet fun shelf => (shelf.nextId, { shelf with nextId := shelf.nextId + 1 })

/-- A new cell. -/
def takeCell : StateM Shelf Nat :=
  modifyGet fun shelf => (shelf.nextCell, { shelf with nextCell := shelf.nextCell + 1 })

/-- Keeps a blueprint in a cell under a label. -/
def keep (label : String) (cell : Nat) (b : Blueprint) : StateM Shelf Unit :=
  modify fun shelf => { shelf with labelled := Ordered.put shelf.labelled label (cell, b) }

/-- The blueprint under a label, with its cell. -/
def labelled? (label : String) : StateM Shelf (Option (Nat × Blueprint)) :=
  return Ordered.find? (← get).labelled label

/-- The shelf with `new` in every use of the cell. -/
def refresh (cell : Nat) (new : Blueprint) (shelf : Shelf) : Shelf :=
  { shelf with
    labelled := shelf.labelled.map fun (label, c, b) =>
      (label, c, if c = cell then new else Raw.refreshBlueprint cell new b) }

end Shelf

end Wiring
