import DisplayFilter.Filter.Node
/-!
# Walks over a forest

How the walk, the numbers and the well-formedness of a forest come from those of its parts. Everything
that is said of all nodes of a forest goes through these equations.
-/

namespace DisplayFilter

namespace Node

@[simp] theorem walk_condition (id : Int) (logic : Logic) (field : String) (operator : Operator)
    (value : String) :
    (condition id logic field operator value).walk = [condition id logic field operator value] := by
  rw [walk]

@[simp] theorem walk_group (id : Int) (logic : Logic) (negated : Bool) (children : Forest) :
    (group id logic negated children).walk =
      group id logic negated children :: Forest.walk children := by
  rw [walk]

theorem mem_walk_self (node : Node) : node ∈ node.walk := by
  cases node <;> simp

@[simp] theorem wellFormed_condition (id : Int) (logic : Logic) (field : String)
    (operator : Operator) (value : String) :
    (condition id logic field operator value).wellFormed = true := by
  rw [wellFormed]

theorem wellFormed_group (id : Int) (logic : Logic) (negated : Bool) (children : Forest) :
    (group id logic negated children).wellFormed = true ↔
      children ≠ [] ∧ Forest.wellFormed children = true := by
  rw [wellFormed]
  simp

end Node

namespace Forest

/-- Forests are built from their last sibling to their first, groups from their children. -/
@[elab_as_elim] theorem induction {motive : Forest → Prop} (nil : motive [])
    (condition : ∀ id logic field operator value rest, motive rest →
      motive (.condition id logic field operator value :: rest))
    (group : ∀ id logic negated children rest, motive children → motive rest →
      motive (.group id logic negated children :: rest)) :
    ∀ forest, motive forest
  | [] => nil
  | .condition id logic field operator value :: rest =>
    condition id logic field operator value rest (induction nil condition group rest)
  | .group id logic negated children :: rest =>
    group id logic negated children rest (induction nil condition group children)
      (induction nil condition group rest)

@[simp] theorem ids_nil : ids [] = [] := by
  simp [ids]

theorem ids_append (left right : Forest) : ids (left ++ right) = ids left ++ ids right := by
  simp [ids, walk_append]

@[simp] theorem ids_condition_cons (id : Int) (logic : Logic) (field : String)
    (operator : Operator) (value : String) (rest : Forest) :
    ids (.condition id logic field operator value :: rest) = id :: ids rest := by
  simp [ids, Node.id]

@[simp] theorem ids_group_cons (id : Int) (logic : Logic) (negated : Bool)
    (children rest : Forest) :
    ids (.group id logic negated children :: rest) = id :: (ids children ++ ids rest) := by
  simp [ids, Node.id]

@[simp] theorem wellFormed_nil : wellFormed [] = true := by
  rw [wellFormed]

@[simp] theorem wellFormed_cons (node : Node) (rest : Forest) :
    wellFormed (node :: rest) = (node.wellFormed && wellFormed rest) := by
  rw [wellFormed]

@[simp] theorem wellFormed_append (left right : Forest) :
    wellFormed (left ++ right) = (wellFormed left && wellFormed right) := by
  induction left with
  | nil => simp
  | cons node left ih => simp [ih, Bool.and_assoc]

end Forest

end DisplayFilter
