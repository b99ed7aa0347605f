import DisplayFilter.Proofs.Expression.Step
import DisplayFilter.Proofs.Filter.Walk
/-!
# The numbers of a reading

The nodes of a reading are numbered upwards in depth-first order, from the first number asked for to below
the next free number, and no group of it is empty (`numbered_ofText`). The invariant behind this looks at
the state of a reading as the forest it would be with every open group closed: a group takes its number
when it opens, so the number stands in front of its children's wherever the group is.
-/

namespace DisplayFilter

/-- Numbers in strictly increasing order, from `first` to below `next`. -/
structure Increasing (first next : Int) (ids : List Int) : Prop where
  sorted : ids.Pairwise (· < ·)
  bounds : ∀ id ∈ ids, first ≤ id ∧ id < next

namespace Increasing

variable {first next : Int} {ids : List Int}

theorem nil : Increasing first next [] :=
  ⟨.nil, by simp⟩

theorem sublist {others : List Int} (hsub : others.Sublist ids)
    (hids : Increasing first next ids) : Increasing first next others :=
  ⟨hids.sorted.sublist hsub, fun id hid => hids.bounds id (hsub.subset hid)⟩

/-- The next free number goes to the end. -/
theorem concat (hle : first ≤ next) (hids : Increasing first next ids) :
    Increasing first (next + 1) (ids ++ [next]) := by
  refine ⟨List.pairwise_append.2 ⟨hids.sorted, List.pairwise_singleton .., ?_⟩, ?_⟩
  · intro id hid other hother
    rw [List.mem_singleton.1 hother]
    exact (hids.bounds id hid).2
  · intro id hid
    rcases List.mem_append.1 hid with hid | hid
    · have hbounds := hids.bounds id hid
      omega
    · rw [List.mem_singleton.1 hid]
      omega

theorem nodup (hids : Increasing first next ids) : ids.Nodup :=
  hids.sorted.imp fun hlt => by omega

end Increasing

namespace Reading

namespace State

/-- The numbers of open groups and of the siblings around them, outermost first. -/
def outerIds : List (Int × Level) → List Int
  | [] => []
  | (id, around) :: outer => outerIds outer ++ Forest.ids around.nodes ++ [id]

/-- All numbers given so far that nothing has dropped, in depth-first order. -/
def ids (state : State) : List Int :=
  outerIds state.outer ++ Forest.ids state.level.nodes

/-- Numbers increase up to the next free one, and every sibling read so far is well formed. -/
structure Numbered (firstId : Int) (state : State) : Prop where
  le_nextId : firstId ≤ state.nextId
  increasing : Increasing firstId state.nextId state.ids
  level : Forest.wellFormed state.level.nodes = true
  outer : ∀ entry ∈ state.outer, Forest.wellFormed entry.2.nodes = true

theorem numbered_start (firstId : Int) : (start firstId).Numbered firstId where
  le_nextId := Int.le_refl firstId
  increasing := by simpa [ids, start, outerIds, Level.empty] using Increasing.nil
  level := by simp [start, Level.empty]
  outer := by simp [start]

variable {firstId : Int} {state : State}

theorem ids_complete (state : State) (field : String) :
    (state.complete field).ids = state.ids ++ [state.nextId] := by
  simp [State.complete, ids, Level.append, Forest.ids_append]

theorem ids_completeComparison (state : State) (field : String) (operator : Operator)
    (value : String) :
    (state.completeComparison field operator value).ids =
      state.ids ++ if state.level.negated then [state.nextId, state.nextId + 1] else [state.nextId] := by
  unfold State.completeComparison
  split <;> simp [ids, Level.append, Forest.ids_append]

theorem Numbered.complete (hstate : state.Numbered firstId) (field : String) :
    (state.complete field).Numbered firstId where
  le_nextId := by
    have hle := hstate.le_nextId
    simp only [State.complete]
    omega
  increasing := by
    rw [ids_complete]
    exact hstate.increasing.concat hstate.le_nextId
  level := by simp [State.complete, Level.append, hstate.level]
  outer := hstate.outer

theorem Numbered.completeComparison (hstate : state.Numbered firstId) (field : String)
    (operator : Operator) (value : String) :
    (state.completeComparison field operator value).Numbered firstId := by
  have hle := hstate.le_nextId
  have honce := hstate.increasing.concat hle
  unfold State.completeComparison
  split
  · have htwice := honce.concat (by omega)
    refine ⟨?_, ?_, ?_, hstate.outer⟩
    · change firstId ≤ state.nextId + 2
      omega
    · simpa [ids, Level.append, Forest.ids_append, Int.add_assoc] using htwice
    · simp [Level.append, Node.wellFormed_group, hstate.level]
  · refine ⟨?_, ?_, ?_, hstate.outer⟩
    · change firstId ≤ state.nextId + 1
      omega
    · simpa [ids, Level.append, Forest.ids_append] using honce
    · simp [Level.append, hstate.level]

theorem Numbered.settle (hstate : state.Numbered firstId) : state.settle.Numbered firstId := by
  unfold State.settle
  split
  · exact hstate
  · exact hstate.complete _
  · exact hstate.completeComparison _ _ _

/-- Closing a group leaves the numbers in order; an empty group takes its own away. -/
theorem ids_appendGroup_sublist (outer : List (Int × Level)) (around : Level) (id : Int)
    (children : Forest) :
    (outerIds outer ++ Forest.ids (around.appendGroup id children).nodes).Sublist
      (outerIds ((id, around) :: outer) ++ Forest.ids children) := by
  unfold Level.appendGroup
  split
  · rename_i hempty
    simp [outerIds, List.isEmpty_iff.1 hempty]
  · simp [outerIds, Level.append, Forest.ids_append]

theorem wellFormed_appendGroup {around : Level} {children : Forest} (id : Int)
    (haround : Forest.wellFormed around.nodes = true)
    (hchildren : Forest.wellFormed children = true) :
    Forest.wellFormed (around.appendGroup id children).nodes = true := by
  unfold Level.appendGroup
  split
  · exact haround
  · rename_i hne
    have hgroup := (Node.wellFormed_group id around.logic around.negated children).2
      ⟨by simpa using hne, hchildren⟩
    simp [Level.append, haround, hgroup]

theorem Numbered.advance (hstate : state.Numbered firstId) (token : Token) :
    (state.advance token).Numbered firstId := by
  unfold State.advance
  split
  · exact ⟨hstate.le_nextId, hstate.increasing, hstate.level, hstate.outer⟩
  · exact ⟨hstate.le_nextId, hstate.increasing, hstate.level, hstate.outer⟩
  · exact ⟨hstate.le_nextId, hstate.increasing, hstate.level, hstate.outer⟩
  · refine ⟨?_, ?_, ?_, ?_⟩
    · have hle := hstate.le_nextId
      change firstId ≤ state.nextId + 1
      omega
    · simpa [ids, outerIds, Level.empty] using hstate.increasing.concat hstate.le_nextId
    · simp [Level.empty]
    · intro entry hentry
      rcases List.mem_cons.1 hentry with rfl | hentry
      · exact hstate.level
      · exact hstate.outer entry hentry
  · split
    · exact ⟨hstate.le_nextId, hstate.increasing, hstate.level, hstate.outer⟩
    · rename_i id around outer houter
      have hincreasing := hstate.increasing
      have hentries := hstate.outer
      rw [ids, houter] at hincreasing
      rw [houter] at hentries
      exact ⟨hstate.le_nextId, hincreasing.sublist (ids_appendGroup_sublist ..),
        wellFormed_appendGroup id (hentries _ List.mem_cons_self) hstate.level,
        fun entry hentry => hentries entry (List.mem_cons_of_mem _ hentry)⟩
  · exact ⟨hstate.le_nextId, hstate.increasing, hstate.level, hstate.outer⟩
  · exact ⟨hstate.le_nextId, hstate.increasing, hstate.level, hstate.outer⟩

theorem Numbered.step {next : State} {token : Token} (hstep : Step state token next)
    (hstate : state.Numbered firstId) : next.Numbered firstId := by
  cases hstep with
  | halted => exact hstate
  | value => exact hstate.completeComparison _ _ _
  | operator => exact ⟨hstate.le_nextId, hstate.increasing, hstate.level, hstate.outer⟩
  | advance => exact hstate.settle.advance token

theorem closeAll_numbered {outer : List (Int × Level)} {level : Level} {next : Int}
    (hincreasing : Increasing firstId next (outerIds outer ++ Forest.ids level.nodes))
    (hlevel : Forest.wellFormed level.nodes = true)
    (houter : ∀ entry ∈ outer, Forest.wellFormed entry.2.nodes = true) :
    Increasing firstId next (Forest.ids (closeAll outer level).nodes) ∧
      Forest.wellFormed (closeAll outer level).nodes = true := by
  induction outer generalizing level with
  | nil => exact ⟨by simpa [outerIds, closeAll] using hincreasing, hlevel⟩
  | cons entry outer ih =>
    obtain ⟨id, around⟩ := entry
    exact ih (hincreasing.sublist (ids_appendGroup_sublist ..))
      (wellFormed_appendGroup id (houter _ List.mem_cons_self) hlevel)
      fun other hother => houter other (List.mem_cons_of_mem _ hother)

end State

/-- What is true of the numbers and groups of every reading. -/
structure Numbered (firstId : Int) (reading : Reading) : Prop where
  le_nextId : firstId ≤ reading.nextId
  increasing : Increasing firstId reading.nextId (Forest.ids reading.forest)
  wellFormed : Forest.wellFormed reading.forest = true

theorem numbered_of_ofTokens {tokens : List Token} {firstId : Int} {reading : Reading}
    (hread : ofTokens tokens firstId = .ok reading) : reading.Numbered firstId := by
  obtain ⟨last, hlast, rfl⟩ := exists_of_ofTokens hread
  have hnumbered : last.Numbered firstId :=
    State.of_feedAll State.Numbered.step (State.numbered_start firstId) hlast
  have hsettled := hnumbered.settle
  obtain ⟨hincreasing, hformed⟩ := State.closeAll_numbered hsettled.increasing hsettled.level
    hsettled.outer
  exact ⟨hsettled.le_nextId, hincreasing, hformed⟩

theorem numbered_ofText (text : String) (firstId : Int) : (ofText text firstId).Numbered firstId :=
  numbered_of_ofTokens (ofTokens_scan text firstId)

end Reading

end DisplayFilter
