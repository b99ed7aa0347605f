import DisplayFilter.Proofs.Expression.Block
import DisplayFilter.Proofs.Filter.Map
/-!
# Reading from another start

The siblings a reading has already and the number it goes on from do not decide what it makes of the tokens
that are left. With other siblings in front and all numbers moved by the same distance the same tokens give
the same forest, behind those siblings and with its numbers moved (`run_moved`). Blocks are read with
siblings of their own, so in them only the numbers move.
-/

namespace DisplayFilter

/-- The siblings behind others, with their numbers moved. -/
def Forest.moved (front : Forest) (distance : Int) (forest : Forest) : Forest :=
  front ++ rename (· + distance) forest

namespace Forest

theorem moved_append (front : Forest) (distance : Int) (left right : Forest) :
    moved front distance (left ++ right) =
      moved front distance left ++ rename (· + distance) right := by
  rw [moved, rename, mapAll_append, ← List.append_assoc]
  rfl

theorem rename_add_zero (forest : Forest) : rename (· + 0) forest = forest := by
  apply mapAll_eq_self
  intro node _
  cases node <;> simp [Node.rename]

end Forest

namespace Reading

/-- The level with other siblings in front of its own, whose numbers are moved. -/
def Level.moved (front : Forest) (distance : Int) (level : Level) : Level :=
  { level with nodes := Forest.moved front distance level.nodes }

/-- The reading with other siblings in front, and all its numbers moved. -/
def moved (front : Forest) (distance : Int) (reading : Reading) : Reading :=
  ⟨Forest.moved front distance reading.forest, reading.nextId + distance⟩

variable (front : Forest) (distance : Int)

theorem Level.moved_empty : Level.empty.moved [] distance = .empty := by
  simp [Level.moved, Level.empty, Forest.moved]

theorem Level.moved_append {node other : Node} (hnode : Forest.rename (· + distance) [node] = [other])
    (level : Level) : (level.append node).moved front distance = (level.moved front distance).append other := by
  simp [Level.moved, Level.append, Forest.moved_append, hnode]

theorem Level.moved_appendGroup (level : Level) (id : Int) (children : Forest) :
    (level.appendGroup id children).moved front distance =
      (level.moved front distance).appendGroup (id + distance)
        (Forest.rename (· + distance) children) := by
  cases children with
  | nil => simp [Level.appendGroup, Level.moved]
  | cons node rest =>
    have hsome : (Forest.rename (· + distance) (node :: rest)).isEmpty = false := by
      cases node <;> simp
    rw [Level.appendGroup, Level.appendGroup, hsome]
    exact Level.moved_append front distance (by simp [Level.moved]) level

theorem conditionNode_add (logic : Logic) (negated : Bool) (id : Int) (field : String)
    (comparison : Option (Operator × String)) :
    Forest.rename (· + distance) [(conditionNode logic negated id field comparison).1] =
        [(conditionNode logic negated (id + distance) field comparison).1] ∧
      (conditionNode logic negated (id + distance) field comparison).2 =
        (conditionNode logic negated id field comparison).2 + distance := by
  unfold conditionNode
  split
  · exact ⟨by simp, by omega⟩
  · split
    · exact ⟨by simp; omega, by simp; omega⟩
    · exact ⟨by simp, by simp; omega⟩

theorem readItems_moved (front : Forest) (distance : Int) (level : Level) (nextId : Int)
    (items : List Item) :
    readItems (level.moved front distance) (nextId + distance) items =
      (readItems level nextId items).map (moved front distance) := by
  match items with
  | [] =>
    rw [readItems, readItems]
    rfl
  | .block items :: rest =>
    have hinner := readItems_moved [] distance .empty (nextId + 1) items
    rw [Level.moved_empty, Int.add_right_comm] at hinner
    rw [readItems, readItems, hinner]
    cases readItems .empty (nextId + 1) items with
    | error fault => rfl
    | ok inner =>
      have hrest := readItems_moved front distance (level.appendGroup nextId inner.forest)
        inner.nextId rest
      rw [Level.moved_appendGroup] at hrest
      exact hrest
  | .leaf token hleaf :: rest =>
    rw [readItems, readItems]
    split
    · exact readItems_moved front distance { level with logic := .and } nextId rest
    · exact readItems_moved front distance { level with logic := .or } nextId rest
    · exact readItems_moved front distance { level with negated := !level.negated } nextId rest
    · rename_i hkind
      simp [Token.isParenthesis, hkind] at hleaf
    · rename_i hkind
      simp [Token.isParenthesis, hkind] at hleaf
    all_goals
      split
      · rfl
      · rename_i comparison after hin
        have hshorter := sizeOf_comparisonIn_le hin
        obtain ⟨hnode, hnext⟩ := conditionNode_add distance level.logic level.negated nextId
          token.content comparison
        have hrest := readItems_moved front distance
          (level.append (conditionNode level.logic level.negated nextId token.content comparison).1)
          (conditionNode level.logic level.negated nextId token.content comparison).2 after
        rw [Level.moved_append front distance hnode, ← hnext] at hrest
        exact hrest
  termination_by sizeOf items
  decreasing_by
    all_goals simp only [List.cons.sizeOf_spec, Item.block.sizeOf_spec, Item.leaf.sizeOf_spec]
    all_goals omega

theorem run_moved (level : Level) (nextId : Int) (tokens : List Token) :
    (State.between [] (level.moved front distance) (nextId + distance)).run tokens =
      ((State.between [] level nextId).run tokens).map (moved front distance) := by
  rw [run_eq_readItems, run_eq_readItems, readItems_moved]

/-- From a higher number on, the same tokens are read with all numbers higher. -/
theorem ofText_add (text : String) (firstId distance : Int) :
    ofText text (firstId + distance) =
      ⟨Forest.rename (· + distance) (ofText text firstId).forest,
        (ofText text firstId).nextId + distance⟩ := by
  have hrun := run_moved [] distance .empty firstId (Token.scan text)
  rw [Level.moved_empty] at hrun
  change ofTokens (Token.scan text) (firstId + distance) =
    (ofTokens (Token.scan text) firstId).map (moved [] distance) at hrun
  rw [ofTokens_scan, ofTokens_scan] at hrun
  exact Except.ok.inj hrun

end Reading

end DisplayFilter
