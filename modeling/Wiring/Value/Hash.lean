import Wiring.Value.Basic

/-!
# Values — what is hashed

A value is handed to a hasher piece by piece: its kind, and then its contents.  Of a set, a map or a
properties table only the size is handed over, because their order does not count when they are
compared; of an object only its identity is.
-/

namespace Wiring

/-- A piece of a value that a hasher gets. -/
inductive Piece where
  | kind (name : String)
  | bool (b : Bool)
  | int (i : Int64)
  | decimal (d : Decimal)
  | char (c : Char)
  | text (s : String)
  | ty (t : Ty)
  | count (n : Nat)
  | external (typeName label : String)
  | built (id : ObjectId)

/-- The piece that stands for an object. -/
def Object.piece : Object → Piece
  | external typeName label => .external typeName label
  | built id _ _ _ _ => .built id

namespace Value

mutual

/-- What a hasher gets of a value. -/
def pieces : Value → List Piece
  | null => [.kind "null"]
  | bool b => [.kind "bool", .bool b]
  | int i => [.kind "int", .int i]
  | decimal d => [.kind "decimal", .decimal d]
  | char c => [.kind "char", .char c]
  | string s => [.kind "string", .text s]
  | stringArray items => .kind "string-array" :: .count items.length :: items.map .text
  | array elementTy values =>
      .kind "array" :: .ty elementTy :: .count values.length :: piecesAll values
  | list values => .kind "list" :: .count values.length :: piecesAll values
  | set values => [.kind "set", .count values.length]
  | map entries => [.kind "map", .count entries.length]
  | properties entries => [.kind "properties", .count entries.length]
  | object o => [.kind "object", o.piece]

def piecesAll : List Value → List Piece
  | [] => []
  | v :: vs => pieces v ++ piecesAll vs

end

end Value

end Wiring
