import Mathlib.Data.List.Nodup
import DisplayFilter.Proofs.Filter.Walk
/-!
# Maps over a forest

One function applied to every node of a forest, to the children of a group before the group itself. A map
that keeps every node keeps the forest (`mapAll_eq_self`), and one that keeps all nodes but those of a number
changes nothing where the number is not used.

Renaming is such a map. Two forests that agree when all numbers are taken away differ by a renaming, if the
first uses no number twice (`exists_rename_eq`).
-/

namespace DisplayFilter

mutual

/-- The node with the function applied to all below it and then to the node. -/
def Node.mapAll (change : Node → Node) : Node → Node
  | .condition id logic field operator value => change (.condition id logic field operator value)
  | .group id logic negated children => change (.group id logic negated (Forest.mapAll change children))

/-- Siblings with the function applied to all nodes. -/
def Forest.mapAll (change : Node → Node) : List Node → List Node
  | [] => []
  | node :: rest => node.mapAll change :: Forest.mapAll change rest

end

namespace Forest

variable {change : Node → Node}

@[simp] theorem mapAll_nil : mapAll change [] = [] := by
  rw [mapAll]

@[simp] theorem mapAll_condition_cons (id : Int) (logic : Logic) (field : String)
    (operator : Operator) (value : String) (rest : Forest) :
    mapAll change (.condition id logic field operator value :: rest) =
      change (.condition id logic field operator value) :: mapAll change rest := by
  rw [mapAll, Node.mapAll]

@[simp] theorem mapAll_group_cons (id : Int) (logic : Logic) (negated : Bool)
    (children rest : Forest) :
    mapAll change (.group id logic negated children :: rest) =
      change (.group id logic negated (mapAll change children)) :: mapAll change rest := by
  rw [mapAll, Node.mapAll]

theorem mapAll_append (left right : Forest) :
    mapAll change (left ++ right) = mapAll change left ++ mapAll change right := by
  induction left with
  | nil => simp
  | cons node left ih => rw [List.cons_append, mapAll, ih, mapAll, List.cons_append]

theorem mapAll_eq_self {forest : Forest} (hsame : ∀ node ∈ walk forest, change node = node) :
    mapAll change forest = forest := by
  induction forest using Forest.induction with
  | nil => exact mapAll_nil
  | condition id logic field operator value rest ih =>
    simp only [walk_cons, Node.walk_condition, List.singleton_append, List.forall_mem_cons] at hsame
    rw [mapAll_condition_cons, hsame.1, ih hsame.2]
  | group id logic negated children rest ihChildren ihRest =>
    simp only [walk_cons, Node.walk_group, List.cons_append, List.forall_mem_cons,
      List.forall_mem_append] at hsame
    rw [mapAll_group_cons, ihChildren hsame.2.1, hsame.1, ihRest hsame.2.2]

theorem mapAll_eq_self_of_not_mem {id : Int} (hother : ∀ node : Node, node.id ≠ id → change node = node)
    {forest : Forest} (hid : id ∉ ids forest) : mapAll change forest = forest := by
  apply mapAll_eq_self
  intro node hnode
  apply hother
  rintro rfl
  exact hid (List.mem_map_of_mem hnode)

theorem mapAll_singleton {node : Node}
    (hother : ∀ other : Node, other.id ≠ node.id → change other = other)
    (hchildren : node.id ∉ ids node.children) : mapAll change [node] = [change node] := by
  cases node with
  | condition => rw [mapAll_condition_cons, mapAll_nil]
  | group id logic negated children =>
    have hsame : mapAll change children = children := mapAll_eq_self_of_not_mem hother hchildren
    rw [mapAll_group_cons, mapAll_nil, hsame]

end Forest

/-- A change of what a node says of itself. It keeps the number, the kind and the children, and what it sets
does not depend on the children. -/
structure Node.IsLocal (change : Node → Node) : Prop where
  condition (id : Int) (logic : Logic) (field : String) (operator : Operator) (value : String) :
    ∃ newLogic newField newOperator newValue, change (.condition id logic field operator value) =
      .condition id newLogic newField newOperator newValue
  group (id : Int) (logic : Logic) (negated : Bool) : ∃ newLogic newNegated,
    ∀ children, change (.group id logic negated children) = .group id newLogic newNegated children

/-- One map after the other is the map of one change after the other. -/
theorem Forest.mapAll_mapAll {first second : Node → Node} (hlocal : Node.IsLocal first)
    (forest : Forest) : mapAll second (mapAll first forest) = mapAll (second ∘ first) forest := by
  induction forest using Forest.induction with
  | nil => simp only [mapAll_nil]
  | condition id logic field operator value rest ih =>
    obtain ⟨_, _, _, _, hcondition⟩ := hlocal.condition id logic field operator value
    simp only [mapAll_condition_cons, hcondition, Function.comp_apply, ih]
  | group id logic negated children rest ihChildren ihRest =>
    obtain ⟨_, _, hgroup⟩ := hlocal.group id logic negated
    simp only [mapAll_group_cons, hgroup, Function.comp_apply, ihChildren, ihRest]

/-! ### Renaming -/

/-- The node under another number. -/
def Node.rename (number : Int → Int) : Node → Node
  | .condition id logic field operator value => .condition (number id) logic field operator value
  | .group id logic negated children => .group (number id) logic negated children

namespace Forest

/-- The forest under other numbers. -/
def rename (number : Int → Int) (forest : Forest) : Forest :=
  mapAll (Node.rename number) forest

/-- The forest without its numbers. -/
def unnumbered (forest : Forest) : Forest :=
  rename (fun _ => 0) forest

variable {number : Int → Int}

@[simp] theorem rename_nil : rename number [] = [] :=
  mapAll_nil

@[simp] theorem rename_condition_cons (id : Int) (logic : Logic) (field : String)
    (operator : Operator) (value : String) (rest : Forest) :
    rename number (.condition id logic field operator value :: rest) =
      .condition (number id) logic field operator value :: rename number rest :=
  mapAll_condition_cons ..

@[simp] theorem rename_group_cons (id : Int) (logic : Logic) (negated : Bool)
    (children rest : Forest) :
    rename number (.group id logic negated children :: rest) =
      .group (number id) logic negated (rename number children) :: rename number rest :=
  mapAll_group_cons ..

theorem ids_rename (number : Int → Int) (forest : Forest) :
    ids (rename number forest) = (ids forest).map number := by
  induction forest using Forest.induction with
  | nil => simp
  | condition id logic field operator value rest ih => simp [ih]
  | group id logic negated children rest ihChildren ihRest => simp [ihChildren, ihRest]

theorem unnumbered_rename (number : Int → Int) (forest : Forest) :
    unnumbered (rename number forest) = unnumbered forest := by
  unfold unnumbered
  induction forest using Forest.induction with
  | nil => simp
  | condition id logic field operator value rest ih => simp [ih]
  | group id logic negated children rest ihChildren ihRest => simp [ihChildren, ihRest]

theorem length_ids_eq {left right : Forest} (hsame : unnumbered left = unnumbered right) :
    (ids left).length = (ids right).length := by
  have hids := congrArg (fun forest => (ids forest).length) hsame
  simpa [unnumbered, ids_rename] using hids

/-- A forest is given by its numbers and what is left without them. -/
theorem eq_of_unnumbered_eq {left right : Forest} (hsame : unnumbered left = unnumbered right)
    (hids : ids left = ids right) : left = right := by
  induction left using Forest.induction generalizing right with
  | nil =>
    cases right with
    | nil => rfl
    | cons node others => cases node <;> simp [unnumbered] at hsame
  | condition id logic field operator value rest ih =>
    cases right with
    | nil => simp [unnumbered] at hsame
    | cons node others =>
      cases node with
      | group => simp [unnumbered] at hsame
      | condition =>
        simp only [unnumbered, rename_condition_cons, List.cons.injEq, Node.condition.injEq] at hsame
        simp only [ids_condition_cons, List.cons.injEq] at hids
        obtain ⟨⟨_, rfl, rfl, rfl, rfl⟩, hrest⟩ := hsame
        rw [hids.1, ih hrest hids.2]
  | group id logic negated children rest ihChildren ihRest =>
    cases right with
    | nil => simp [unnumbered] at hsame
    | cons node others =>
      cases node with
      | condition => simp [unnumbered] at hsame
      | group _ _ _ inner =>
        simp only [unnumbered, rename_group_cons, List.cons.injEq, Node.group.injEq] at hsame
        simp only [ids_group_cons, List.cons.injEq] at hids
        obtain ⟨⟨_, rfl, rfl, hinner⟩, hrest⟩ := hsame
        -- The children take equally many numbers on both sides, so the numbers split at the same point.
        obtain ⟨hchildrenIds, hrestIds⟩ := List.append_inj hids.2 (length_ids_eq hinner)
        rw [hids.1, ihChildren hinner hchildrenIds, ihRest hrest hrestIds]

theorem exists_map_eq {given wanted : List Int} (hnodup : given.Nodup)
    (hlength : given.length = wanted.length) : ∃ number : Int → Int, given.map number = wanted := by
  refine ⟨fun id => wanted.getD (given.idxOf id) 0, ?_⟩
  apply List.ext_getElem (by simpa)
  intro index hgiven hwanted
  rw [List.length_map] at hgiven
  rw [List.getElem_map, hnodup.idxOf_getElem index hgiven, List.getD_eq_getElem?_getD,
    List.getElem?_eq_getElem hwanted, Option.getD_some]

/-- Forests that agree without their numbers differ by a renaming, which is one-to-one if the second forest
uses no number twice. -/
theorem exists_rename_eq {left right : Forest} (hnodup : (ids left).Nodup)
    (hsame : unnumbered left = unnumbered right) :
    ∃ number : Int → Int, rename number left = right ∧
      ((ids right).Nodup →
        ∀ id ∈ ids left, ∀ other ∈ ids left, number id = number other → id = other) := by
  obtain ⟨number, hnumber⟩ := exists_map_eq hnodup (length_ids_eq hsame)
  have hids : ids (rename number left) = ids right := (ids_rename number left).trans hnumber
  refine ⟨number, eq_of_unnumbered_eq ((unnumbered_rename number left).trans hsame) hids, ?_⟩
  intro hright id hid other hother heq
  rw [← hnumber] at hright
  exact List.inj_on_of_nodup_map hright hid hother heq

end Forest

end DisplayFilter
