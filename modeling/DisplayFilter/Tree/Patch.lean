import DisplayFilter.Document.Table
import DisplayFilter.Filter.Argument
/-!
# Patches

A patch is a table of attributes. On a condition it may set the combinator, the field, the operator and
the value, on a group the combinator and the negation. Attributes are checked and set in the order of the
table, and the first fault is the fault of the patch.
-/

namespace DisplayFilter

/-- What is to be set, in order. -/
abbrev Patch := Table String Argument

namespace Node

def set (node : Node) (name : String) (argument : Argument) : Except FilterError Node :=
  match node, name with
  | .condition id _ field operator value, "logic" => do
    return .condition id (← argument.toLogic) field operator value
  | .condition id logic _ operator value, "field" =>
    .ok (.condition id logic argument.shown operator value)
  | .condition id logic field _ value, "operator" =>
    .ok (.condition id logic field argument.toOperator value)
  | .condition id logic field operator _, "value" =>
    .ok (.condition id logic field operator argument.shown)
  | .group id _ negated children, "logic" => do
    return .group id (← argument.toLogic) negated children
  | .group id logic _ children, "negated" => do
    return .group id logic (← argument.toFlag) children
  | node, name => .error (.inapplicable name node.kind)

def applyPatch (node : Node) (patch : Patch) : Except FilterError Node :=
  patch.foldlM (fun node entry => node.set entry.1 entry.2) node

end Node

end DisplayFilter
