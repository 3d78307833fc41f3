/-!
# Text — blank characters

The characters with the Unicode property `White_Space` (`isBlank`), and a text without the blanks
at its two ends (`trim`).
-/

namespace Wiring.Text

/-- The ranges of `White_Space`, both ends included. -/
def blankRanges : List (Nat × Nat) :=
  [(0x09, 0x0D), (0x20, 0x20), (0x85, 0x85), (0xA0, 0xA0), (0x1680, 0x1680), (0x2000, 0x200A),
   (0x2028, 0x2029), (0x202F, 0x202F), (0x205F, 0x205F), (0x3000, 0x3000)]

/-- `c` has the property `White_Space`. -/
def isBlank (c : Char) : Bool :=
  blankRanges.any fun r => r.1 ≤ c.toNat && c.toNat ≤ r.2

/-- `cs` without the blanks it starts and ends with. -/
def trimmed (cs : List Char) : List Char :=
  ((cs.dropWhile isBlank).reverse.dropWhile isBlank).reverse

/-- The text without the blanks it starts and ends with. -/
def trim (s : String) : String :=
  String.ofList (trimmed s.toList)

end Wiring.Text
