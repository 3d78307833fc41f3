/-!
# Text — quoted strings

A text between double quotes, as JSON writes it.  `quote` escapes the quote, the backslash and
the control characters below U+0020 and writes all else as it is.  `unquote?` reads the body
behind an opening quote, with every escape JSON has; it refuses a bare control character, an
unknown escape and half of a surrogate pair.
-/

namespace Wiring.Text

/-- The digit of a number below 16, in lower case. -/
def hexDigit (n : Nat) : Char :=
  if n < 10 then Char.ofNat ('0'.toNat + n) else Char.ofNat ('a'.toNat + (n - 10))

/-- The value of a hexadecimal digit in either case. -/
def hexValue? (c : Char) : Option Nat :=
  if '0' ≤ c ∧ c ≤ '9' then some (c.toNat - '0'.toNat)
  else if 'a' ≤ c ∧ c ≤ 'f' then some (c.toNat - 'a'.toNat + 10)
  else if 'A' ≤ c ∧ c ≤ 'F' then some (c.toNat - 'A'.toNat + 10)
  else none

/-- One character between quotes. -/
def escape (c : Char) : List Char :=
  match c with
  | '"' => ['\\', '"']
  | '\\' => ['\\', '\\']
  | '\x08' => ['\\', 'b']
  | '\x0c' => ['\\', 'f']
  | '\n' => ['\\', 'n']
  | '\r' => ['\\', 'r']
  | '\t' => ['\\', 't']
  | c =>
    if c.toNat < 0x20 then
      ['\\', 'u', '0', '0', hexDigit (c.toNat / 16), hexDigit (c.toNat % 16)]
    else [c]

/-- The text between double quotes. -/
def quote (s : String) : String :=
  String.ofList ('"' :: (s.toList.flatMap escape ++ ['"']))

/-- Where the reader of a quoted body stands. -/
inductive Quoting where
  /-- Between two characters. -/
  | plain
  /-- Behind a backslash. -/
  | escaped
  /-- Inside `\u`: the first half of a pair if there is one, the digits still due, their value. -/
  | unit (high : Option Nat) (due value : Nat)
  /-- Behind the first half of a pair, where a backslash is due. -/
  | half (high : Nat)
  /-- Behind the first half of a pair and a backslash, where `u` is due. -/
  | halfEscaped (high : Nat)

/-- The character a one-letter escape stands for. -/
def unescape? : Char → Option Char
  | '"' => some '"'
  | '\\' => some '\\'
  | '/' => some '/'
  | 'b' => some '\x08'
  | 'f' => some '\x0c'
  | 'n' => some '\n'
  | 'r' => some '\r'
  | 't' => some '\t'
  | _ => none

/-- What a complete `\u` unit adds and where the reader goes on; `none` for half a pair out of
place. -/
def closeUnit (high : Option Nat) (value : Nat) : Option (List Char × Quoting) :=
  match high with
  | none =>
    if 0xD800 ≤ value ∧ value < 0xDC00 then some ([], .half value)
    else if 0xDC00 ≤ value ∧ value < 0xE000 then none
    else some ([Char.ofNat value], .plain)
  | some h =>
    if 0xDC00 ≤ value ∧ value < 0xE000 then
      some ([Char.ofNat (0x10000 + (h - 0xD800) * 0x400 + (value - 0xDC00))], .plain)
    else none

/-- The text up to the closing quote, and what follows it. -/
def unquote? : Quoting → List Char → Option (List Char × List Char)
  | _, [] => none
  | .plain, c :: cs =>
    if c = '"' then some ([], cs)
    else if c = '\\' then unquote? .escaped cs
    else if c.toNat < 0x20 then none
    else (unquote? .plain cs).map fun (t, rest) => (c :: t, rest)
  | .escaped, c :: cs =>
    if c = 'u' then unquote? (.unit none 4 0) cs
    else (unescape? c).bind fun d => (unquote? .plain cs).map fun (t, rest) => (d :: t, rest)
  | .unit high due value, c :: cs =>
    (hexValue? c).bind fun d =>
      if due ≤ 1 then
        (closeUnit high (16 * value + d)).bind fun (found, next) =>
          (unquote? next cs).map fun (t, rest) => (found ++ t, rest)
      else unquote? (.unit high (due - 1) (16 * value + d)) cs
  | .half high, c :: cs => if c = '\\' then unquote? (.halfEscaped high) cs else none
  | .halfEscaped high, c :: cs => if c = 'u' then unquote? (.unit (some high) 4 0) cs else none

end Wiring.Text
