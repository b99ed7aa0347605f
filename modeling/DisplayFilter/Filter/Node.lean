import DisplayFilter.Filter.Logic
import DisplayFilter.Filter.Operator
/-!
# Filter nodes

A filter is a forest: conditions, and groups that hold a run of siblings and can be excluded as a whole.
A node's combinator relates it to the sibling before it and means nothing on a first sibling. A
well-formed forest has no group without children.
-/

namespace DisplayFilter

/-- A condition on one field, or a group of siblings. -/
inductive Node where
  | condition (id : Int) (logic : Logic) (field : String) (operator : Operator) (value : String)
  | group (id : Int) (logic : Logic) (negated : Bool) (children : List Node)
  deriving Repr, Inhabited

/-- Siblings in order. -/
abbrev Forest := List Node

inductive NodeKind where
  | condition
  | group
  deriving DecidableEq, Repr, Inhabited

namespace NodeKind

def name : NodeKind → String
  | .condition => "condition"
  | .group => "group"

def ofName? : String → Option NodeKind
  | "condition" => some .condition
  | "group" => some .group
  | _ => none

end NodeKind

namespace Node

/-- The number a node is known by. -/
def id : Node → Int
  | .condition id .. => id
  | .group id .. => id

/-- How the node is joined to the sibling before it. -/
def logic : Node → Logic
  | .condition _ logic .. => logic
  | .group _ logic .. => logic

def kind : Node → NodeKind
  | .condition .. => .condition
  | .group .. => .group

/-- The siblings inside a group; a condition has none. -/
def children : Node → Forest
  | .condition .. => []
  | .group _ _ _ children => children

/-- A test that a field is present. -/
def presence (id : Int) (field : String) : Node :=
  .condition id .and field .exists ""

end Node

mutual

/-- The node and all below it, parents before their children. -/
def Node.walk : Node → List Node
  | .condition id logic field operator value => [.condition id logic field operator value]
  | .group id logic negated children => .group id logic negated children :: Forest.walk children

/-- All nodes of a forest depth first, parents before their children. -/
def Forest.walk : List Node → List Node
  | [] => []
  | node :: rest => node.walk ++ Forest.walk rest

end

mutual

/-- No group at or below the node is empty. -/
def Node.wellFormed : Node → Bool
  | .condition .. => true
  | .group _ _ _ children => !children.isEmpty && Forest.wellFormed children

/-- No group of the forest is empty, at any depth. -/
def Forest.wellFormed : List Node → Bool
  | [] => true
  | node :: rest => node.wellFormed && Forest.wellFormed rest

end

namespace Forest

/-- The numbers of all nodes, depth first. -/
def ids (forest : Forest) : List Int :=
  (walk forest).map Node.id

/-- The first node of that number, depth first. -/
def find? (forest : Forest) (id : Int) : Option Node :=
  (walk forest).find? (·.id == id)

@[simp] theorem walk_nil : walk [] = [] := by
  rw [walk]

@[simp] theorem walk_cons (node : Node) (rest : Forest) :
    walk (node :: rest) = node.walk ++ walk rest := by
  rw [walk]

theorem walk_append (left right : Forest) : walk (left ++ right) = walk left ++ walk right := by
  induction left with
  | nil => simp
  | cons node rest ih => simp [ih]

end Forest

end DisplayFilter
