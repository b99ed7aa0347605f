import DisplayFilter.Expression.Parser
import DisplayFilter.Filter.Record
import DisplayFilter.Tree.Basic
import DisplayFilter.Tree.Patch
/-!
# Editing a tree

Four edits: update a node, add a default node, remove a node, load an expression. An edit that does not
apply leaves the tree as it is and answers nothing; an edit that applies answers the new tree; a faulty
one answers its fault. New nodes are numbered from the tree's counter, so numbers are not used twice.
-/

universe u

namespace DisplayFilter

namespace Forest

section

variable {m : Type → Type u} [Monad m]

mutual

/-- Changes the first node of that number in a forest. A node for which `change` answers nothing is
dropped, and so is a group left empty by that. Nothing when the number does not occur. The change may
have effects, such as a fault. -/
def replaceFirstM? (id : Int) (change : Node → m (Option Node)) : List Node → m (Option (List Node))
  | [] => pure none
  | node :: rest => do
    if node.id = id then
      return some ((← change node).toList ++ rest)
    else match ← replaceBelowM? id change node with
      | some replacement => return some (replacement.toList ++ rest)
      | none => return (← replaceFirstM? id change rest).map (node :: ·)

/-- Changes below a node: nothing when the number does not occur there, and an absent node when the
group is left empty. -/
def replaceBelowM? (id : Int) (change : Node → m (Option Node)) : Node → m (Option (Option Node))
  | .condition .. => pure none
  | .group groupId logic negated children => do
    match ← replaceFirstM? id change children with
    | none => return none
    | some [] => return some none
    | some changed => return some (some (.group groupId logic negated changed))

end

end

/-- Changes the first node of that number by a change that has no effects. -/
def replaceFirst? (id : Int) (change : Node → Option Node) (forest : Forest) : Option Forest :=
  Id.run (replaceFirstM? id (fun node => pure (change node)) forest)

end Forest

namespace Tree

/-- Sets attributes of a node. -/
def update? (tree : Tree) (id : Int) (patch : Patch) : Except FilterError (Option Tree) :=
  match tree.find? id with
  | none => .ok none
  | some node => do
    let patched ← node.applyPatch patch
    let roots := (Forest.replaceFirst? id (fun _ => some patched) tree.roots).getD tree.roots
    return some (← make roots tree.nextId)

/-- A new node of a kind, and the next number after it. A group starts with one condition. -/
def newNode (kind : NodeKind) (id : Int) : Node × Int :=
  match kind with
  | .condition => (.presence id "", id + 1)
  | .group => (.group id .and false [.presence (id + 1) ""], id + 2)

/-- The node with one more child at the end; a condition stays as it is. -/
def appendChild (child : Node) : Node → Node
  | .group id logic negated children => .group id logic negated (children ++ [child])
  | node => node

/-- Puts a new node at the end of the roots. -/
def addRoot (tree : Tree) (kind : NodeKind) : Except FilterError Tree :=
  let (node, nextId) := newNode kind tree.nextId
  make (tree.roots ++ [node]) nextId

/-- Puts a new node at the end of a group. -/
def addChild? (tree : Tree) (parent : Int) (kind : NodeKind) : Except FilterError (Option Tree) :=
  let (node, nextId) := newNode kind tree.nextId
  match tree.find? parent with
  | some (.group ..) => do
    let roots := Forest.replaceFirst? parent (fun group => some (appendChild node group)) tree.roots
    return some (← make (roots.getD tree.roots) nextId)
  | _ => .ok none

/-- Removes a node, and every group left empty by that. Refused when nothing would be left. -/
def remove? (tree : Tree) (id : Int) : Except FilterError (Option Tree) :=
  match tree.find? id with
  | none => .ok none
  | some _ =>
    match Forest.replaceFirst? id (fun _ => none) tree.roots with
    | none | some [] => .ok none
    | some roots => (make roots tree.nextId).map some

/-- Replaces the roots by what an expression yields. Refused when it yields nothing. -/
def load? (tree : Tree) (text : String) : Except FilterError (Option Tree) :=
  match (Reading.ofText text tree.nextId).forest with
  | [] => .ok none
  | forest => (make forest tree.nextId).map some

end Tree

/-- An edit of a tree. Nodes are named by values: a value that equals no integer names no node. -/
inductive Edit where
  | update (id : Value) (patch : Patch)
  | add (parent : Value) (kind : Value)
  | remove (id : Value)
  | load (text : String)
  deriving Inhabited

namespace Edit

/-- What an edit makes of a tree: nothing when it does not apply. -/
def run? (edit : Edit) (tree : Tree) : Except FilterError (Option Tree) :=
  match edit with
  | .update id patch => match id.toInt? with
    | some id => tree.update? id patch
    | none => .ok none
  | .add parent kind => do
    let kind ← NodeKind.ofRecord kind
    match parent with
    | .null => return some (← tree.addRoot kind)
    | _ => match parent.toInt? with
      | some parent => tree.addChild? parent kind
      | none => return none
  | .remove id => match id.toInt? with
    | some id => tree.remove? id
    | none => .ok none
  | .load text => tree.load? text

/-- The tree after an edit, or the same tree when it does not apply. -/
def run (edit : Edit) (tree : Tree) : Except FilterError Tree :=
  (edit.run? tree).map (·.getD tree)

end Edit

end DisplayFilter
