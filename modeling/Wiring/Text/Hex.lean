/-!
# Text — hexadecimal numbers
-/

namespace Wiring.Text

/-- A number in lower-case hexadecimal digits. -/
def hex (n : Nat) : String :=
  String.ofList (Nat.toDigits 16 n)

end Wiring.Text
