import Wiring.Template
import Wiring.Text.Blank
import Wiring.Text.Integer

/-!
# Evaluation — texts into values

The ways a container can evaluate the texts of its blueprints.
-/

namespace Wiring

/-- How texts are evaluated. -/
inductive Evaluation where
  /-- Placeholders are filled in. -/
  | placeholders
  /-- A text stands for itself. -/
  | literal
  /-- A text is a number, or an error. -/
  | number

namespace Evaluation

/-- The integer a text writes, blanks around it aside. -/
def readNumber (text : String) : Except Error Value :=
  match Text.readInteger (Text.trim text) with
  | .ok i => .ok (.int i)
  | .error fault => .error (.other ("'" ++ text ++ "' is not a number: " ++ fault.message))

/-- The value of a text. -/
def evaluate (how : Evaluation) (table : Table Value) (text : String) : Except Error Value :=
  match how with
  | placeholders => Template.evaluate table text
  | literal => .ok (.string text)
  | number => readNumber text

end Evaluation

end Wiring
