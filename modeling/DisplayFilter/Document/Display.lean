import DisplayFilter.Document.Value
import DisplayFilter.Numeric.Shortest
import DisplayFilter.Text.Literal
/-!
# The text of a value

In messages and labels a value is shown as itself when it is a text, a date or a moment, and as a literal
otherwise: texts inside quotation marks, sequences in brackets, mappings in braces.
-/

namespace DisplayFilter

/-- The literal of a scalar. -/
def Scalar.literal : Scalar → String
  | .null => "None"
  | .bool value => if value then "True" else "False"
  | .int value => toString value
  | .float value => value.text
  | .date value => value.literal
  | .moment value => value.literal
  | .text value => Text.literal value

/-- The text of a scalar. -/
def Scalar.shown : Scalar → String
  | .date value => value.text
  | .moment value => value.text
  | .text value => value
  | other => other.literal

namespace Value

mutual

def literal : Value → String
  | .scalar leaf => leaf.literal
  | .sequence items => "[" ++ ", ".intercalate (literals items) ++ "]"
  | .mapping entries => "\x7b" ++ ", ".intercalate (entryLiterals entries) ++ "\x7d"

def literals : List Value → List String
  | [] => []
  | item :: rest => literal item :: literals rest

def entryLiterals : List (Scalar × Value) → List String
  | [] => []
  | (key, value) :: rest => (key.literal ++ ": " ++ literal value) :: entryLiterals rest

end

def shown : Value → String
  | .scalar leaf => leaf.shown
  | value => value.literal

end Value

end DisplayFilter
