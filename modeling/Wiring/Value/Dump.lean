import Wiring.Json
import Wiring.Value.Text

/-!
# Values — dump

A value as JSON (`Value.dump`).  A table becomes an object whose members are named by the texts of
the keys; an object becomes its type's name under `$object`.  The text of a key may show more than
`Value.text` does, which does not tell one object from another; so how keys are shown is a parameter
(`Value.dumpBy`).
-/

namespace Wiring.Value

mutual

/-- The value as JSON, with the keys of tables shown by `shown`. -/
def dumpBy (shown : Value → String) : Value → Json
  | null => .null
  | bool b => .bool b
  | int i => .int i.toInt
  | decimal d => .decimal d
  | char c => .string (String.singleton c)
  | string s => .string s
  | stringArray items => .array (items.map .string)
  | array _ values => .array (dumpsBy shown values)
  | list values => .array (dumpsBy shown values)
  | set values => .array (dumpsBy shown values)
  | map entries => .ofMembers (dumpEntriesBy shown entries)
  | properties entries => .ofMembers (dumpEntriesBy shown entries)
  | object o => .object [("$object", .string o.typeName)]
termination_by structural v => v

/-- The members of a list as JSON, in order. -/
def dumpsBy (shown : Value → String) : List Value → List Json
  | [] => []
  | v :: vs => v.dumpBy shown :: dumpsBy shown vs
termination_by structural vs => vs

/-- The entries of a table as members, in order. -/
def dumpEntriesBy (shown : Value → String) : List (Value × Value) → List (String × Json)
  | [] => []
  | (k, v) :: es => (shown k, v.dumpBy shown) :: dumpEntriesBy shown es
termination_by structural es => es

end

/-- The value as JSON. -/
def dump (v : Value) : Json :=
  v.dumpBy text

end Wiring.Value
