import Wiring.Error
import Wiring.Table
import Wiring.Value.Text

/-!
# Templates — texts with placeholders

A text is in exactly one way a template: literal texts with `$` and a key in braces between them,
and at the end possibly a placeholder that is never closed (`Template.read`).  A literal text does
not hold the opening mark, a key does not hold the closing brace.

`Template.evaluate` puts values in for the keys; what is put in is not read again.  A text that is
one placeholder and nothing else keeps the type of its value: it is told by its two ends and by
what is not in between (`Template.soleKey?`).
-/

namespace Wiring

/-- A text taken apart at its placeholders. -/
inductive Template where
  /-- A literal text up to the end. -/
  | rest (text : List Char)
  /-- A literal text, a placeholder, and what follows. -/
  | hole (text key : List Char) (next : Template)
  /-- A literal text and a placeholder that is not closed. -/
  | unclosed (text tail : List Char)

namespace Template

/-- The template of the text that goes on with `cs`.  `text` is the literal text read so far, from
the end; `key` is the key read so far, from the end, inside a placeholder. -/
def scan : List Char → Option (List Char) → List Char → Template
  | text, none, [] => rest text.reverse
  | text, none, '$' :: '\x7b' :: cs => scan text (some []) cs
  | text, none, c :: cs => scan (c :: text) none cs
  | text, some key, [] => unclosed text.reverse key.reverse
  | text, some key, c :: cs =>
    if c = '\x7d' then hole text.reverse key.reverse (scan [] none cs)
    else scan text (some (c :: key)) cs

/-- The template a text is. -/
def read (s : String) : Template :=
  scan [] none s.toList

/-- The opening mark of a placeholder stands somewhere in the text. -/
def opens : List Char → Bool
  | '$' :: '\x7b' :: _ => true
  | _ :: cs => opens cs
  | [] => false

/-- The error for a key without a value in the text `whole`. -/
def unknownKey (whole : String) (key : List Char) : Error :=
  .expression whole ("unknown placeholder '" ++ String.ofList key ++ "'")

/-- The error for a placeholder in the text `whole` that is not closed. -/
def unterminated (whole : String) : Error :=
  .expression whole "unterminated placeholder"

/-- The value of a key. -/
def lookUp (placeholders : Table Value) (whole : String) (key : List Char) : Except Error Value :=
  match placeholders.get? (String.ofList key) with
  | some v => .ok v
  | none => .error (unknownKey whole key)

/-- The text with the values' texts put in, or the error of the first placeholder that has none. -/
def fill (placeholders : Table Value) (whole : String) : Template → Except Error String
  | rest text => .ok (String.ofList text)
  | hole text key next =>
    match lookUp placeholders whole key with
    | .error e => .error e
    | .ok v => (fill placeholders whole next).map fun t => String.ofList text ++ (v.text ++ t)
  | unclosed _ _ => .error (unterminated whole)

/-- The key of a text that is one placeholder: the text starts with an opening mark and ends with a
closing brace, and there is none of either in between. -/
def soleKey? : List Char → Option (List Char)
  | '$' :: '\x7b' :: cs =>
    if cs.getLast? = some '\x7d' && !opens cs.dropLast && !cs.dropLast.contains '\x7d' then
      some cs.dropLast
    else none
  | _ => none

/-- The value a text evaluates to. -/
def evaluate (placeholders : Table Value) (whole : String) : Except Error Value :=
  if opens whole.toList then
    match soleKey? whole.toList with
    | some key => lookUp placeholders whole key
    | none => (fill placeholders whole (read whole)).map .string
  else .ok (.string whole)

end Template

end Wiring
