import DisplayFilter.Document.Display
import DisplayFilter.Document.Table
/-!
# Labels of operators

An operator is labelled by a symbol and a label. In a label document the entry of an operator is the label
itself, or a mapping with the label and, if it differs from the operator's identifier, the symbol.
-/

namespace DisplayFilter

structure OperatorLabel where
  symbol : Value
  label : Value
  deriving Inhabited

/-- What a table says of an operator: the labels themselves, or the value of a label document. -/
inductive OperatorEntry where
  | labels (labels : OperatorLabel)
  | given (value : Value)
  deriving Inhabited

/-- What can be wrong with labels. Offending values are given by their literals. -/
inductive LabelError where
  | invalidEntry (operator : String) (literal : String)
  | notMapping (path : String)
  | sectionNotMapping (name : String) (path : String)
  deriving DecidableEq, Repr

namespace LabelError

def message : LabelError → String
  | .invalidEntry operator literal =>
    "Invalid label entry for operator " ++ Text.literal operator ++ ": " ++ literal
  | .notMapping path => "Label dictionary " ++ path ++ " must be a mapping"
  | .sectionNotMapping name path =>
    "Section '" ++ name ++ "' in " ++ path ++ " must be a mapping"

end LabelError

namespace OperatorLabel

/-- The labels of an operator from a value of a label document. -/
def ofValue (operator : String) (value : Value) : Except LabelError OperatorLabel :=
  match value with
  | .text label => .ok ⟨.text operator, .text label⟩
  | _ => match value.field? "label" with
    | some label =>
      let symbol := ((value.field? "symbol").map Value.shown).getD operator
      .ok ⟨.text symbol, .text label.shown⟩
    | none => .error (.invalidEntry operator value.literal)

/-- The labels of an operator from its entry. -/
def ofEntry (operator : String) : OperatorEntry → Except LabelError OperatorLabel
  | .labels labels => .ok labels
  | .given value => ofValue operator value

/-- The labels of all operators of a table, in its order. -/
def ofEntries : Table String OperatorEntry → Except LabelError (Table String OperatorLabel)
  | [] => .ok []
  | (operator, entry) :: rest => do
    let labels ← ofEntry operator entry
    let others ← ofEntries rest
    return (operator, labels) :: others

end OperatorLabel

end DisplayFilter
