import DisplayFilter.Filter.Error
/-!
# Filter trees

A tree is a forest with the number its next node will get. `Tree.make` is the only way to one: it refuses
an empty forest and a number that occurs twice, and puts the next number above all numbers in use.
-/

namespace DisplayFilter

/-- A forest and the next free number. -/
structure Tree where
  roots : Forest
  nextId : Int
  deriving Repr, Inhabited

/-- The first number of a list that occurred before it. -/
def firstDuplicate? (seen : List Int) : List Int → Option Int
  | [] => none
  | id :: rest => if seen.contains id then some id else firstDuplicate? (id :: seen) rest

namespace Tree

/-- The tree of a forest, with a next number no less than the given one. -/
def make (roots : Forest) (nextId : Int) : Except FilterError Tree :=
  if roots.isEmpty then .error .emptyTree
  else match firstDuplicate? [] (Forest.ids roots) with
    | some id => .error (.duplicateId id)
    | none => .ok ⟨roots, (Forest.ids roots).foldl (fun bound id => max bound (id + 1)) nextId⟩

/-- The tree of a forest that counts from one. -/
def ofForest (roots : Forest) : Except FilterError Tree :=
  make roots 1

/-- The tree an editor starts from: one field that is to be present. -/
def initial (field : String) : Tree :=
  ⟨[.presence 1 field], 2⟩

/-- The initial tree is a tree like any other. -/
theorem make_presence (field : String) : ofForest [.presence 1 field] = .ok (initial field) := by
  rfl

def find? (tree : Tree) (id : Int) : Option Node :=
  Forest.find? tree.roots id

def ids (tree : Tree) : List Int :=
  Forest.ids tree.roots

end Tree

end DisplayFilter
