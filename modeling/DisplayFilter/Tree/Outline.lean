import DisplayFilter.Filter.Node
import DisplayFilter.Text.Literal
/-!
# Outlines

An outline has one line per node, parents before their children, two blanks deeper on each level. A line
shows the combinator unless the node is a first sibling, the node's number in brackets, and the condition
or a mark for the group. Values are written as literals.
-/

namespace DisplayFilter

namespace Outline

/-- The blanks before a line; above the left margin there are none. -/
def pad (indent : Int) : String :=
  String.ofList (List.replicate (2 * indent.toNat) ' ')

/-- What a line says of a condition. -/
def condition (field : String) (operator : Operator) (value : String) : String :=
  field ++ " " ++ operator.symbol ++
    (if operator.takesValue then " " ++ Text.literal value else "")

/-- What a line says of a group. -/
def group (negated : Bool) : String :=
  if negated then "!( ... )" else "( ... )"

/-- What stands before the text of a node. -/
def lead (indent : Int) (first : Bool) (logic : Logic) (id : Int) : String :=
  pad indent ++ (if first then "" else logic.symbol ++ " ") ++ "[" ++ toString id ++ "] "

mutual

/-- The lines of a node and all below it. -/
def node (indent : Int) (first : Bool) : Node → List String
  | .condition id logic field operator value =>
    [lead indent first logic id ++ condition field operator value]
  | .group id logic negated children =>
    (lead indent first logic id ++ group negated) :: siblings (indent + 1) true children

/-- The lines of siblings in order. -/
def siblings (indent : Int) (first : Bool) : List Node → List String
  | [] => []
  | sibling :: rest => node indent first sibling ++ siblings indent false rest

end

end Outline

/-- The outline of a forest, its roots so many levels deep. -/
def Forest.outline (forest : Forest) (indent : Int) : List String :=
  Outline.siblings indent true forest

end DisplayFilter
