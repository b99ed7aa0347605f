import DisplayFilter.Filter.Node
/-!
# Faults of trees and edits

What can be wrong with a tree, with a patch of a node or with the word for a member of a closed set, and
how each fault is reported.
-/

namespace DisplayFilter

/-- A fault of a tree or an edit. Offending values are given by their literals. -/
inductive FilterError where
  | emptyTree
  | emptyGroup (id : Int)
  | duplicateId (id : Int)
  | inapplicable (name : String) (kind : NodeKind)
  | unknownLogic (literal : String)
  | notFlag (literal : String)
  | noLogic (literal : String)
  | noOperator (literal : String)
  | noKind (literal : String)
  deriving DecidableEq, Repr

namespace FilterError

def message : FilterError → String
  | .emptyTree => "A filter tree must contain at least one node"
  | .emptyGroup id => "Group " ++ toString id ++ " must contain at least one node"
  | .duplicateId id => "Duplicate node id " ++ toString id
  | .inapplicable name kind =>
    "Cannot update '" ++ name ++ "' on a " ++ kind.name ++ " node"
  | .unknownLogic literal => "Unknown logic combinator: " ++ literal
  | .notFlag literal => "Not a boolean flag: " ++ literal
  | .noLogic literal => literal ++ " is not a valid Logic"
  | .noOperator literal => literal ++ " is not a valid Operator"
  | .noKind literal => literal ++ " is not a valid NodeKind"

/-- The fault lies with the word for a member of a closed set, and not with a tree or a patch. -/
def isMembership : FilterError → Bool
  | .noLogic _ | .noOperator _ | .noKind _ => true
  | _ => false

end FilterError

end DisplayFilter
