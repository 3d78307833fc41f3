import Wiring.Text.Quoted

/-!
# Tagged — cases of a sum type as JSON

A case without data is written as its name, `"any"`, and a case that carries a text as an object
with one member, `{"named":"x"}`.  The reader (`Tagged.read?`) takes blanks wherever JSON allows
them, and takes a case without data also as a member with the value `null`.
-/

namespace Wiring

/-- A case of a sum type with the text it carries, if it carries one. -/
structure Tagged where
  name : String
  content : Option String
  deriving DecidableEq

namespace Tagged

/-- The case as JSON. -/
def text : Tagged → String
  | ⟨name, none⟩ => Text.quote name
  | ⟨name, some content⟩ => "\x7b" ++ Text.quote name ++ ":" ++ Text.quote content ++ "\x7d"

/-- What follows the blanks JSON allows between its tokens. -/
def skip (cs : List Char) : List Char :=
  cs.dropWhile fun c => c = ' ' ∨ c = '\t' ∨ c = '\n' ∨ c = '\r'

/-- What follows `c`, behind blanks. -/
def expect? (c : Char) (cs : List Char) : Option (List Char) :=
  match skip cs with
  | d :: rest => if d = c then some rest else none
  | [] => none

/-- The quoted string that comes next, and what follows it. -/
def string? (cs : List Char) : Option (String × List Char) := do
  let body ← expect? '"' cs
  let (s, rest) ← Text.unquote? .plain body
  return (String.ofList s, rest)

/-- The content that comes next, and what follows it: `null`, or a quoted string. -/
def content? (cs : List Char) : Option (Option String × List Char) :=
  match skip cs with
  | 'n' :: 'u' :: 'l' :: 'l' :: rest => some (none, rest)
  | rest => (string? rest).map fun (s, rest) => (some s, rest)

/-- The case that comes next, and what follows it. -/
def next? (cs : List Char) : Option (Tagged × List Char) :=
  match expect? '\x7b' cs with
  | none => (string? cs).map fun (name, rest) => (⟨name, none⟩, rest)
  | some body => do
    let (name, rest) ← string? body
    let rest ← expect? ':' rest
    let (content, rest) ← content? rest
    let rest ← expect? '\x7d' rest
    return (⟨name, content⟩, rest)

/-- The case a text writes. -/
def read? (s : String) : Option Tagged :=
  (next? s.toList).bind fun (tagged, rest) => if (skip rest).isEmpty then some tagged else none

end Tagged

end Wiring
