import Mathlib.Data.Int.Interval
import DisplayFilter.Expression.Notes
import DisplayFilter.Proofs.Expression.Numbering
import DisplayFilter.Proofs.Expression.Offset
/-!
# The numbers a reading leaves out

A group takes its number before anything in it is read, and a group that turns out to be empty takes its
number with it. So the numbers a reading has given out are those of its nodes and those of the groups it has
dropped, which the notes on the reading name (`numbers_ofText`).

Which groups are dropped can be told from the parentheses alone: the blocks that hold no word, however many
blocks and modifiers they hold.
-/

namespace DisplayFilter

/-- Every number from `first` to below `next` is in the list, once, and no other is. -/
structure Exhausts (first next : Int) (ids : List Int) : Prop where
  le : first ≤ next
  nodup : ids.Nodup
  mem_iff : ∀ id, id ∈ ids ↔ first ≤ id ∧ id < next

namespace Exhausts

variable {first next : Int} {ids : List Int}

theorem nil (first : Int) : Exhausts first first [] where
  le := Int.le_refl first
  nodup := .nil
  mem_iff id := by
    simp only [List.not_mem_nil, false_iff]
    omega

theorem perm {others : List Int} (hperm : ids.Perm others) (hids : Exhausts first next ids) :
    Exhausts first next others where
  le := hids.le
  nodup := hperm.nodup_iff.1 hids.nodup
  mem_iff id := by rw [← hperm.mem_iff, hids.mem_iff]

/-- The next free number comes in between. -/
theorem insert {front back : List Int} (hids : Exhausts first next (front ++ back)) :
    Exhausts first (next + 1) (front ++ [next] ++ back) := by
  have hperm : (next :: (front ++ back)).Perm (front ++ [next] ++ back) := by
    simpa using List.perm_middle.symm
  refine perm hperm ⟨Int.le_trans hids.le (by omega), ?_, fun id => ?_⟩
  · refine List.nodup_cons.2 ⟨fun hmem => ?_, hids.nodup⟩
    exact Int.lt_irrefl next ((hids.mem_iff next).1 hmem).2
  · have hle := hids.le
    rw [List.mem_cons, hids.mem_iff]
    omega

theorem length_eq (hids : Exhausts first next ids) : (ids.length : Int) = next - first := by
  have hall : ids.toFinset = Finset.Ico first next := by
    ext id
    rw [List.mem_toFinset, Finset.mem_Ico, hids.mem_iff]
  have hle := hids.le
  rw [← List.toFinset_card_of_nodup hids.nodup, hall, Int.card_Ico]
  omega

end Exhausts

namespace Reading

/-! ### Dropped groups take their numbers with them -/

/-- The number of a group that was dropped, if the note is on one. -/
def Note.droppedId? : Note → Option Int
  | .emptyGroup id => some id
  | .unclosed _ | .unmatched .. => none

/-- The numbers of the groups that were dropped. -/
def droppedIds (notes : List Note) : List Int :=
  notes.filterMap Note.droppedId?

namespace State

/-- All numbers given out are in use, or are among those lost. -/
def Exhausted (firstId : Int) (lost : List Int) (state : State) : Prop :=
  Exhausts firstId state.nextId (state.ids ++ lost)

variable {firstId : Int} {lost : List Int} {state : State}

theorem exhausted_start (firstId : Int) : (start firstId).Exhausted firstId [] := by
  simpa [Exhausted, ids, start, outerIds, Level.empty] using Exhausts.nil firstId

theorem Exhausted.complete (hstate : state.Exhausted firstId lost) (field : String) :
    (state.complete field).Exhausted firstId lost := by
  rw [Exhausted, ids_complete]
  exact hstate.insert

theorem Exhausted.completeComparison (hstate : state.Exhausted firstId lost) (field : String)
    (operator : Operator) (value : String) :
    (state.completeComparison field operator value).Exhausted firstId lost := by
  rw [Exhausted, ids_completeComparison]
  have honce := hstate.insert
  unfold State.completeComparison
  cases state.level.negated with
  | false => exact honce
  | true =>
    have htwice := honce.insert
    rw [List.append_assoc state.ids, Int.add_assoc] at htwice
    exact htwice

theorem Exhausted.settle (hstate : state.Exhausted firstId lost) :
    state.settle.Exhausted firstId lost := by
  unfold State.settle
  split
  · exact hstate
  · exact hstate.complete _
  · exact hstate.completeComparison _ _ _

/-- Closing a group keeps its number in use, or loses it with the group. -/
theorem ids_appendGroup_perm (outer : List (Int × Level)) (around : Level) (id : Int)
    (children : Forest) (lost : List Int) :
    (outerIds ((id, around) :: outer) ++ Forest.ids children ++ lost).Perm
      (outerIds outer ++ Forest.ids (around.appendGroup id children).nodes ++
        (droppedIds (notesOnGroup id children) ++ lost)) := by
  unfold Level.appendGroup notesOnGroup
  split
  · rename_i hempty
    simp [outerIds, List.isEmpty_iff.1 hempty, droppedIds, Note.droppedId?]
  · simp [outerIds, Level.append, Forest.ids_append, droppedIds]

theorem Exhausted.advance (hactive : state.halted = false) (hstate : state.Exhausted firstId lost)
    (token : Token) (position remaining : Nat) :
    (state.settle.advance token).Exhausted firstId
      (droppedIds (state.notesOn token position remaining) ++ lost) := by
  have hsettled := hstate.settle
  rw [State.advance, State.notesOn, if_neg (by simp [hactive])]
  cases hkind : token.kind with
  | and | or | not | comparison | atom => exact hsettled
  | leftParen => simpa [Exhausted, ids, outerIds, Level.empty, droppedIds] using hsettled.insert
  | rightParen =>
    rw [Exhausted, ids, outer_settle] at hsettled
    rw [outer_settle]
    cases houter : state.outer with
    | nil =>
      rw [houter] at hsettled
      exact hsettled
    | cons entry outer =>
      rw [houter] at hsettled
      exact hsettled.perm (ids_appendGroup_perm ..)

/-- What a token drops is noted, and nothing else is. -/
theorem Exhausted.step {next : State} {token : Token} (hstep : Step state token next)
    (hstate : state.Exhausted firstId lost) (position remaining : Nat) :
    next.Exhausted firstId (droppedIds (state.notesOn token position remaining) ++ lost) := by
  cases hstep with
  | halted hhalted =>
    rw [notesOn, if_pos hhalted]
    exact hstate
  | value hactive _ hword =>
    have hnone : state.notesOn token position remaining = [] := by
      simp only [Token.isWord, Bool.or_eq_true, beq_iff_eq] at hword
      rcases hword with hkind | hkind <;> simp [notesOn, hkind]
    rw [hnone]
    exact hstate.completeComparison _ _ _
  | operator hactive _ hkind =>
    have hnone : state.notesOn token position remaining = [] := by
      simp [notesOn, hkind]
    rw [hnone]
    exact hstate
  | advance hactive => exact hstate.advance hactive token position remaining

theorem exhausts_closeAll {nextId : Int} (outer : List (Int × Level)) (level : Level)
    (hstate : Exhausts firstId nextId (outerIds outer ++ Forest.ids level.nodes ++ lost)) :
    Exhausts firstId nextId
      (Forest.ids (closeAll outer level).nodes ++ (droppedIds (notesOnClosing outer level) ++ lost)) := by
  induction outer generalizing level lost with
  | nil => simpa [outerIds, closeAll, notesOnClosing, droppedIds] using hstate
  | cons entry outer ih =>
    obtain ⟨id, around⟩ := entry
    have hclosed := ih _ (hstate.perm (ids_appendGroup_perm outer around id level.nodes lost))
    refine hclosed.perm (List.Perm.append_left _ ?_)
    simp only [notesOnClosing, droppedIds, List.filterMap_append, List.filterMap_cons,
      Note.droppedId?, ← List.append_assoc]
    exact List.Perm.append_right lost List.perm_append_comm

/-- At the end of a reading the numbers are those of its nodes and those the notes say were lost. -/
theorem Exhausted.run {tokens : List Token} {reading : Reading} (hstate : state.Exhausted firstId lost)
    (position : Nat) (hrun : state.run tokens = .ok reading) :
    Exhausts firstId reading.nextId
      (Forest.ids reading.forest ++ (droppedIds (state.notesOnAll position tokens) ++ lost)) := by
  induction tokens generalizing state lost position with
  | nil =>
    cases hrun
    exact exhausts_closeAll _ _ hstate.settle
  | cons token tokens ih =>
    rw [run_cons] at hrun
    obtain ⟨next, hnext, htail⟩ := exists_of_bind_eq_ok hrun
    have hstep := hstate.step (step_of_feed hnext) position (tokens.length + 1)
    have hrest := ih hstep (position + 1) htail
    rw [notesOnAll, hnext]
    refine hrest.perm (List.Perm.append_left _ ?_)
    simp only [droppedIds, List.filterMap_append, ← List.append_assoc]
    exact List.Perm.append_right lost List.perm_append_comm

end State

theorem exhausts_of_ofTokens {tokens : List Token} {firstId : Int} {reading : Reading}
    (hread : ofTokens tokens firstId = .ok reading) :
    Exhausts firstId reading.nextId
      (Forest.ids reading.forest ++ droppedIds (notes tokens firstId)) := by
  have hrun := (State.exhausted_start firstId).run 0 hread
  rwa [List.append_nil] at hrun

/-! ### Dropped groups hold no word -/

/-- A word is among the items, at whatever depth. -/
def holdsWord : List Item → Bool
  | [] => false
  | .leaf token _ :: rest => token.isWord || holdsWord rest
  | .block items :: rest => holdsWord items || holdsWord rest

/-- How many blocks, at any depth, hold no word. -/
def hollowBlocks : List Item → Nat
  | [] => 0
  | .leaf _ _ :: rest => hollowBlocks rest
  | .block items :: rest =>
    (if holdsWord items then 0 else 1) + hollowBlocks items + hollowBlocks rest

theorem appendGroup_eq_nil_iff (level : Level) (id : Int) (children : Forest) :
    (level.appendGroup id children).nodes = [] ↔ level.nodes = [] ∧ children = [] := by
  cases children <;> simp [Level.appendGroup, Level.append]

/-- Words become conditions, so a block is read as nothing only when it holds none. -/
theorem forest_eq_nil_of_readItems {level : Level} {nextId : Int} {items : List Item}
    {reading : Reading} (hread : readItems level nextId items = .ok reading) :
    reading.forest = [] ↔ level.nodes = [] ∧ holdsWord items = false := by
  fun_induction readItems level nextId items generalizing reading with
  | case1 level nextId =>
    cases hread
    simp [holdsWord]
  | case2 level nextId items rest ihinner ihrest =>
    obtain ⟨inner, hinner, hrest⟩ := exists_of_bind_eq_ok hread
    rw [ihrest inner hrest, appendGroup_eq_nil_iff, ihinner hinner]
    simp [holdsWord, Level.empty, and_assoc]
  | case3 level nextId token hleaf rest hkind ih
  | case4 level nextId token hleaf rest hkind ih
  | case5 level nextId token hleaf rest hkind ih =>
    rw [ih hread]
    simp [holdsWord, Token.isWord, hkind]
  | case6 | case8 => cases hread
  | case7 level nextId token hleaf rest hkind comparison after hin node next hnode ih
  | case9 level nextId token hleaf rest hkind comparison after hin node next hnode ih =>
    rw [ih hread]
    simp [holdsWord, Token.isWord, hkind, Level.append]

theorem nextId_conditionNode (logic : Logic) (negated : Bool) (id : Int) (field : String)
    (comparison : Option (Operator × String)) :
    (conditionNode logic negated id field comparison).2 =
      id + (conditionNode logic negated id field comparison).1.walk.length := by
  unfold conditionNode
  split
  · simp
  · split <;> simp

theorem hollowBlocks_valueIn (items : List Item) :
    hollowBlocks (valueIn items).2 = hollowBlocks items := by
  unfold valueIn
  split
  · split <;> simp [hollowBlocks]
  · rfl

/-- The operands of a field are single tokens. -/
theorem hollowBlocks_of_comparisonIn {items after : List Item}
    {comparison : Option (Operator × String)} (hin : comparisonIn items = .ok (comparison, after)) :
    hollowBlocks after = hollowBlocks items := by
  unfold comparisonIn at hin
  split at hin
  · split at hin
    · split at hin
      · cases hin
      · cases hin
        rw [hollowBlocks_valueIn, hollowBlocks]
    · cases hin
      rfl
  · cases hin
    rfl

theorem length_walk_appendGroup (level : Level) (id : Int) (children : Forest) :
    (Forest.walk (level.appendGroup id children).nodes).length =
      (Forest.walk level.nodes).length + (Forest.walk children).length +
        (if children.isEmpty then 0 else 1) := by
  unfold Level.appendGroup
  split
  · rename_i hempty
    simp [List.isEmpty_iff.1 hempty]
  · simp [Level.append, Forest.walk_append]
    omega

/-- The numbers given out are those of the new nodes and one for every block without a word. -/
theorem nextId_of_readItems {level : Level} {nextId : Int} {items : List Item} {reading : Reading}
    (hread : readItems level nextId items = .ok reading) :
    reading.nextId + (Forest.walk level.nodes).length =
      nextId + (Forest.walk reading.forest).length + hollowBlocks items := by
  fun_induction readItems level nextId items generalizing reading with
  | case1 level nextId =>
    cases hread
    simp [hollowBlocks]
  | case2 level nextId items rest ihinner ihrest =>
    obtain ⟨inner, hinner, hbehind⟩ := exists_of_bind_eq_ok hread
    have hrest := ihrest inner hbehind
    have hinside := ihinner hinner
    have hdropped : inner.forest.isEmpty = !holdsWord items := by
      rw [Bool.eq_iff_iff, List.isEmpty_iff, forest_eq_nil_of_readItems hinner]
      simp [Level.empty]
    rw [length_walk_appendGroup, hdropped] at hrest
    rw [Level.empty, Forest.walk_nil, List.length_nil] at hinside
    rw [hollowBlocks]
    cases hword : holdsWord items <;> simp [hword] at hrest hinside ⊢ <;> omega
  | case3 level nextId token hleaf rest hkind ih
  | case4 level nextId token hleaf rest hkind ih
  | case5 level nextId token hleaf rest hkind ih =>
    rw [hollowBlocks]
    exact ih hread
  | case6 | case8 => cases hread
  | case7 level nextId token hleaf rest hkind comparison after hin node next hnode ih
  | case9 level nextId token hleaf rest hkind comparison after hin node next hnode ih =>
    have hrest := ih hread
    have hnext := nextId_conditionNode level.logic level.negated nextId token.content comparison
    rw [hnode] at hnext
    rw [hollowBlocks_of_comparisonIn hin, Level.append, Forest.walk_append, Forest.walk_cons,
      Forest.walk_nil, List.append_nil, List.length_append] at hrest
    simp only at hnext
    rw [hollowBlocks]
    omega

/-- The numbers of a text's nodes increase depth first, from the first number asked for to below the next
free one. In between lacks one number for every dropped group, the groups dropped being the blocks without a
word, and which these are the notes say. From a higher number on the same nodes are read with higher
numbers. -/
theorem numbers_ofText (text : String) (firstId : Int) :
    Increasing firstId (ofText text firstId).nextId (Forest.ids (ofText text firstId).forest) ∧
      (ofText text firstId).nextId - firstId =
        (Forest.walk (ofText text firstId).forest).length +
          hollowBlocks (nest [] [] (Token.scan text)) ∧
      (droppedIds (notes (Token.scan text) firstId)).length =
        hollowBlocks (nest [] [] (Token.scan text)) ∧
      Exhausts firstId (ofText text firstId).nextId
        (Forest.ids (ofText text firstId).forest ++ droppedIds (notes (Token.scan text) firstId)) ∧
      ∀ distance : Int, ofText text (firstId + distance) =
        ⟨Forest.rename (· + distance) (ofText text firstId).forest,
          (ofText text firstId).nextId + distance⟩ := by
  have hread := ofTokens_scan text firstId
  have hexhausts := exhausts_of_ofTokens hread
  have hlength := hexhausts.length_eq
  rw [List.length_append, Forest.ids, List.length_map] at hlength
  rw [ofTokens_eq_ofBlocks] at hread
  have hcount := nextId_of_readItems hread
  rw [Level.empty, Forest.walk_nil, List.length_nil] at hcount
  exact ⟨(numbered_ofText text firstId).increasing, by omega, by omega, hexhausts,
    ofText_add text firstId⟩

end Reading

end DisplayFilter
