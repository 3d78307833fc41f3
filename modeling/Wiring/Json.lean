import Wiring.Decimal.Layout
import Wiring.Table
import Wiring.Text.Quoted

/-!
# JSON — values and their compact text

A JSON value whose objects list their members in order of names, each name once
(`Json.ofMembers` keeps the last of several members with one name).  `Json.text` writes it without
blanks.  A decimal that no JSON number can write is `null`.
-/

namespace Wiring

/-- A JSON value. -/
inductive Json where
  | null
  | bool (b : Bool)
  | int (i : Int)
  | decimal (d : Decimal)
  | string (s : String)
  | array (items : List Json)
  | object (members : List (String × Json))

namespace Json

instance : Inhabited Json := ⟨null⟩

/-- The object with the given members; of members with one name the last one stands. -/
def ofMembers (members : List (String × Json)) : Json :=
  object (members.foldl (fun sorted e => insertSorted e.1 e.2 sorted) [])

/-- The members of an object; other values have none. -/
def members : Json → List (String × Json)
  | object es => es
  | _ => []

mutual

/-- The value without blanks. -/
def text : Json → String
  | null => "null"
  | bool b => if b then "true" else "false"
  | int i => toString i
  | decimal d => d.jsonNumber?.getD "null"
  | string s => Text.quote s
  | array items => "[" ++ String.intercalate "," (texts items) ++ "]"
  | object members => "\x7b" ++ String.intercalate "," (memberTexts members) ++ "\x7d"
termination_by structural v => v

/-- The texts of a list of values. -/
def texts : List Json → List String
  | [] => []
  | v :: vs => v.text :: texts vs
termination_by structural vs => vs

/-- The texts of members. -/
def memberTexts : List (String × Json) → List String
  | [] => []
  | (name, v) :: es => (Text.quote name ++ ":" ++ v.text) :: memberTexts es
termination_by structural es => es

end

end Json

end Wiring
