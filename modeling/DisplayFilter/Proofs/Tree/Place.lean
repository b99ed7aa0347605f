import DisplayFilter.Proofs.Filter.Walk
import DisplayFilter.Tree.Edit
/-!
# Places in a forest

A place is a position among the siblings of a forest, at any depth, with all that stands around it. The
first node of a number has a place (`exists_place_of_find?`), and changing that node changes what stands
at the place and nothing else (`replaceFirstM?_fill`), up to groups left empty. So what an edit does to a
forest is read off two fillings of one place.
-/

universe u

namespace DisplayFilter

/-- A position among siblings, at any depth. -/
inductive Place where
  | among (before after : Forest)
  | inside (before : Forest) (id : Int) (logic : Logic) (negated : Bool) (place : Place)
    (after : Forest)

namespace Place

/-- The forest with these siblings at the place. -/
def fill (content : Forest) : Place → Forest
  | among before after => before ++ content ++ after
  | inside before id logic negated place after =>
    before ++ .group id logic negated (place.fill content) :: after

/-- The forest with these siblings at the place, less the groups around it that are empty then. -/
def fillPruned (content : Forest) : Place → Forest
  | among before after => before ++ content ++ after
  | inside before id logic negated place after =>
    match place.fillPruned content with
    | [] => before ++ after
    | children => before ++ .group id logic negated children :: after

/-- The numbers in front of the place, depth first. -/
def idsBefore : Place → List Int
  | among before _ => Forest.ids before
  | inside before id _ _ place _ => Forest.ids before ++ id :: place.idsBefore

/-- The numbers behind the place, depth first. -/
def idsAfter : Place → List Int
  | among _ after => Forest.ids after
  | inside _ _ _ _ place after => place.idsAfter ++ Forest.ids after

/-- No group in front of the place or behind it is empty. -/
def wellFormed : Place → Bool
  | among before after => Forest.wellFormed before && Forest.wellFormed after
  | inside before _ _ _ place after =>
    Forest.wellFormed before && place.wellFormed && Forest.wellFormed after

/-- The same place behind some more siblings. -/
def behind (front : Forest) : Place → Place
  | among before after => among (front ++ before) after
  | inside before id logic negated place after =>
    inside (front ++ before) id logic negated place after

theorem fill_behind (front : Forest) (place : Place) (content : Forest) :
    (place.behind front).fill content = front ++ place.fill content := by
  cases place <;> simp [behind, fill]

theorem idsBefore_behind (front : Forest) (place : Place) :
    (place.behind front).idsBefore = Forest.ids front ++ place.idsBefore := by
  cases place <;> simp [behind, idsBefore, Forest.ids_append]

/-- The place that stands at another place. -/
def within (inner : Place) : Place → Place
  | among before after =>
    match inner with
    | among front back => among (before ++ front) (back ++ after)
    | inside front id logic negated place back =>
      inside (before ++ front) id logic negated place (back ++ after)
  | inside before id logic negated place after =>
    inside before id logic negated (inner.within place) after

theorem fill_within (inner outer : Place) (content : Forest) :
    (inner.within outer).fill content = outer.fill (inner.fill content) := by
  induction outer with
  | among before after => cases inner <;> simp [within, fill]
  | inside before id logic negated outer after ih => rw [within, fill, ih, fill]

theorem fillPruned_within (inner outer : Place) (content : Forest) :
    (inner.within outer).fillPruned content = outer.fillPruned (inner.fillPruned content) := by
  induction outer with
  | among before after =>
    cases inner with
    | among front back => simp [within, fillPruned]
    | inside front id logic negated place back =>
      simp only [within, fillPruned]
      cases place.fillPruned content <;> simp
  | inside before id logic negated outer after ih => rw [within, fillPruned, ih, fillPruned]

theorem ids_fill (place : Place) (content : Forest) :
    Forest.ids (place.fill content) = place.idsBefore ++ Forest.ids content ++ place.idsAfter := by
  induction place with
  | among before after => simp [fill, idsBefore, idsAfter, Forest.ids_append]
  | inside before id logic negated place after ih =>
    simp [fill, idsBefore, idsAfter, Forest.ids_append, ih]

theorem fill_ne_nil (place : Place) {content : Forest} (hne : content ≠ []) :
    place.fill content ≠ [] := by
  cases place <;> simp [fill, hne]

/-- Nothing is pruned around a place that is not left empty. -/
theorem fillPruned_of_ne_nil (place : Place) {content : Forest} (hne : content ≠ []) :
    place.fillPruned content = place.fill content := by
  induction place with
  | among before after => rfl
  | inside before id logic negated place after ih =>
    rw [fillPruned, ih, fill]
    split
    · rename_i hempty
      exact absurd hempty (place.fill_ne_nil hne)
    · rfl

theorem ids_fillPruned_sublist (place : Place) (content : Forest) :
    (Forest.ids (place.fillPruned content)).Sublist (Forest.ids (place.fill content)) := by
  induction place with
  | among before after => exact List.Sublist.refl _
  | inside before id logic negated place after ih =>
    rw [fillPruned, fill, Forest.ids_append, Forest.ids_group_cons]
    split
    · rw [Forest.ids_append]
      exact (List.Sublist.refl _).append
        (((List.sublist_append_right _ _)).trans (List.sublist_cons_self _ _))
    · rw [Forest.ids_append, Forest.ids_group_cons]
      exact (List.Sublist.refl _).append ((ih.append (List.Sublist.refl _)).cons_cons _)

theorem wellFormed_of_fill {place : Place} {content : Forest}
    (hformed : Forest.wellFormed (place.fill content) = true) :
    place.wellFormed = true ∧ Forest.wellFormed content = true := by
  induction place with
  | among before after =>
    simp only [fill, Forest.wellFormed_append, Bool.and_eq_true] at hformed
    exact ⟨by simp [wellFormed, hformed.1.1, hformed.2], hformed.1.2⟩
  | inside before id logic negated place after ih =>
    simp only [fill, Forest.wellFormed_append, Forest.wellFormed_cons, Bool.and_eq_true,
      Node.wellFormed_group] at hformed
    obtain ⟨hbefore, ⟨_, hinner⟩, hafter⟩ := hformed
    exact ⟨by simp [wellFormed, hbefore, hafter, (ih hinner).1], (ih hinner).2⟩

theorem wellFormed_fillPruned {place : Place} {content : Forest}
    (hplace : place.wellFormed = true) (hcontent : Forest.wellFormed content = true) :
    Forest.wellFormed (place.fillPruned content) = true := by
  induction place with
  | among before after =>
    simp only [wellFormed, Bool.and_eq_true] at hplace
    simp [fillPruned, hplace.1, hplace.2, hcontent]
  | inside before id logic negated place after ih =>
    simp only [wellFormed, Bool.and_eq_true] at hplace
    obtain ⟨⟨hbefore, hinner⟩, hafter⟩ := hplace
    rw [fillPruned]
    split
    · simp [hbefore, hafter]
    · rename_i hchildren
      have hgroup := (Node.wellFormed_group id logic negated (place.fillPruned content)).2
        ⟨hchildren, ih hinner⟩
      simp [hbefore, hafter, hgroup]

end Place

/-! ### The place of a number -/

namespace Forest

theorem find?_nil (id : Int) : find? [] id = none := by
  simp [find?]

theorem find?_cons (node : Node) (rest : Forest) (id : Int) :
    find? (node :: rest) id =
      if node.id = id then some node else (find? node.children id).or (find? rest id) := by
  have hwalk : node.walk = node :: walk node.children := by
    cases node <;> simp [Node.children]
  by_cases hid : node.id = id
  · rw [if_pos hid, find?, walk_cons, hwalk, List.cons_append, List.find?_cons_of_pos (by simp [hid])]
  · rw [if_neg hid, find?, walk_cons, hwalk, List.cons_append, List.find?_cons_of_neg (by simp [hid]),
      List.find?_append]
    rfl

theorem id_of_find? {forest : Forest} {id : Int} {node : Node} (hfind : find? forest id = some node) :
    node.id = id := by
  simpa using List.find?_some hfind

theorem find?_eq_none_iff {forest : Forest} {id : Int} :
    find? forest id = none ↔ id ∉ ids forest := by
  simp [find?, ids, List.find?_eq_none]

theorem find?_append {front : Forest} {id : Int} (hfront : id ∉ ids front) (rest : Forest) :
    find? (front ++ rest) id = find? rest id := by
  have hnone := find?_eq_none_iff.2 hfront
  rw [find?] at hnone
  rw [find?, walk_append, List.find?_append, hnone, Option.none_or, find?]

/-- With no such number in front of the place, the node at the place is found. -/
theorem find?_fill {place : Place} {node : Node} (hbefore : node.id ∉ place.idsBefore) :
    find? (place.fill [node]) node.id = some node := by
  induction place with
  | among before after =>
    rw [Place.fill, List.append_assoc, find?_append hbefore, List.singleton_append, find?_cons,
      if_pos rfl]
  | inside before id logic negated place after ih =>
    simp only [Place.idsBefore, List.mem_append, List.mem_cons, not_or] at hbefore
    obtain ⟨hfront, hgroup, hinner⟩ := hbefore
    have hne : (Node.group id logic negated (place.fill [node])).id ≠ node.id := Ne.symm hgroup
    rw [Place.fill, find?_append hfront, find?_cons, if_neg hne, Node.children, ih hinner,
      Option.some_or]

/-- The first node of a number stands at a place with no such number in front of it. -/
theorem exists_place_of_find? {forest : Forest} {id : Int} {node : Node}
    (hfind : find? forest id = some node) :
    ∃ place : Place, place.fill [node] = forest ∧ id ∉ place.idsBefore := by
  induction forest using Forest.induction with
  | nil => simp [find?_nil] at hfind
  | condition first logic field operator value rest ih =>
    rw [find?_cons] at hfind
    split at hfind
    · cases hfind
      exact ⟨.among [] rest, rfl, by simp [Place.idsBefore]⟩
    · rename_i hne
      have hne : id ≠ first := fun heq => hne heq.symm
      obtain ⟨place, hfill, hbefore⟩ := ih hfind
      refine ⟨place.behind [.condition first logic field operator value], ?_, ?_⟩
      · rw [Place.fill_behind, hfill, List.singleton_append]
      · simp [Place.idsBefore_behind, hne, hbefore]
  | group first logic negated children rest ihChildren ihRest =>
    rw [find?_cons] at hfind
    split at hfind
    · cases hfind
      exact ⟨.among [] rest, rfl, by simp [Place.idsBefore]⟩
    · rename_i hne
      have hne : id ≠ first := fun heq => hne heq.symm
      change (find? children id).or (find? rest id) = some node at hfind
      cases hinner : find? children id with
      | some found =>
        rw [hinner, Option.some_or] at hfind
        obtain ⟨place, hfill, hbefore⟩ := ihChildren (hinner.trans hfind)
        refine ⟨.inside [] first logic negated place rest, ?_, ?_⟩
        · rw [Place.fill, hfill, List.nil_append]
        · simp [Place.idsBefore, hne, hbefore]
      | none =>
        rw [hinner, Option.none_or] at hfind
        obtain ⟨place, hfill, hbefore⟩ := ihRest hfind
        refine ⟨place.behind [.group first logic negated children], ?_, ?_⟩
        · rw [Place.fill_behind, hfill, List.singleton_append]
        · simp [Place.idsBefore_behind, hne, hbefore, find?_eq_none_iff.1 hinner]

/-- Every node of a forest stands at some place. -/
theorem exists_place_of_mem_walk {forest : Forest} {node : Node} (hnode : node ∈ walk forest) :
    ∃ place : Place, place.fill [node] = forest := by
  induction forest using Forest.induction with
  | nil => simp at hnode
  | condition id logic field operator value rest ih =>
    simp only [walk_cons, Node.walk_condition, List.singleton_append, List.mem_cons] at hnode
    rcases hnode with rfl | hrest
    · exact ⟨.among [] rest, rfl⟩
    · obtain ⟨place, hfill⟩ := ih hrest
      exact ⟨place.behind [.condition id logic field operator value], by rw [Place.fill_behind, hfill]; rfl⟩
  | group id logic negated children rest ihChildren ihRest =>
    simp only [walk_cons, Node.walk_group, List.cons_append, List.mem_cons, List.mem_append] at hnode
    rcases hnode with rfl | hchildren | hrest
    · exact ⟨.among [] rest, rfl⟩
    · obtain ⟨place, hfill⟩ := ihChildren hchildren
      exact ⟨.inside [] id logic negated place rest, by rw [Place.fill, hfill]; rfl⟩
    · obtain ⟨place, hfill⟩ := ihRest hrest
      exact ⟨place.behind [.group id logic negated children], by rw [Place.fill_behind, hfill]; rfl⟩

/-! ### Changing the first node of a number -/

section

variable {m : Type → Type u} [Monad m] {id : Int} {change : Node → m (Option Node)}

theorem replaceFirstM?_nil : replaceFirstM? id change [] = pure none := by
  rw [replaceFirstM?]

variable [LawfulMonad m]

theorem replaceFirstM?_of_id_eq {node : Node} {rest : Forest} (hid : node.id = id) :
    replaceFirstM? id change (node :: rest) =
      (fun changed => some (changed.toList ++ rest)) <$> change node := by
  rw [replaceFirstM?, if_pos hid, map_eq_pure_bind]

theorem replaceFirstM?_condition_cons {first : Int} {logic : Logic} {field : String}
    {operator : Operator} {value : String} {rest : Forest} (hne : first ≠ id) :
    replaceFirstM? id change (.condition first logic field operator value :: rest) =
      Option.map (.condition first logic field operator value :: ·) <$>
        replaceFirstM? id change rest := by
  have hid : (Node.condition first logic field operator value).id ≠ id := hne
  rw [replaceFirstM?, if_neg hid, replaceBelowM?, pure_bind, map_eq_pure_bind]

theorem replaceFirstM?_group_cons {first : Int} {logic : Logic} {negated : Bool}
    {children rest : Forest} (hne : first ≠ id) :
    replaceFirstM? id change (.group first logic negated children :: rest) = do
      match ← replaceFirstM? id change children with
      | none => Option.map (.group first logic negated children :: ·) <$> replaceFirstM? id change rest
      | some [] => return some rest
      | some changed => return some (.group first logic negated changed :: rest) := by
  have hid : (Node.group first logic negated children).id ≠ id := hne
  rw [replaceFirstM?, if_neg hid, replaceBelowM?, bind_assoc]
  refine bind_congr fun answer => ?_
  rcases answer with _ | _ | _ <;> simp

theorem replaceFirstM?_eq_none {forest : Forest} (hforest : id ∉ ids forest) :
    replaceFirstM? id change forest = pure none := by
  induction forest using Forest.induction with
  | nil => exact replaceFirstM?_nil
  | condition first logic field operator value rest ih =>
    rw [ids_condition_cons, List.mem_cons, not_or] at hforest
    rw [replaceFirstM?_condition_cons (Ne.symm hforest.1), ih hforest.2, map_pure, Option.map_none]
  | group first logic negated children rest ihChildren ihRest =>
    rw [ids_group_cons, List.mem_cons, List.mem_append, not_or, not_or] at hforest
    rw [replaceFirstM?_group_cons (Ne.symm hforest.1), ihChildren hforest.2.1, pure_bind,
      ihRest hforest.2.2, map_pure, Option.map_none]

theorem replaceFirstM?_append {front : Forest} (hfront : id ∉ ids front) (rest : Forest) :
    replaceFirstM? id change (front ++ rest) =
      Option.map (front ++ ·) <$> replaceFirstM? id change rest := by
  induction front using Forest.induction with
  | nil => simp
  | condition first logic field operator value front ih =>
    rw [ids_condition_cons, List.mem_cons, not_or] at hfront
    rw [List.cons_append, replaceFirstM?_condition_cons (Ne.symm hfront.1), ih hfront.2,
      Functor.map_map]
    simp only [Option.map_map, Function.comp_def, List.cons_append]
  | group first logic negated children front _ ih =>
    rw [ids_group_cons, List.mem_cons, List.mem_append, not_or, not_or] at hfront
    rw [List.cons_append, replaceFirstM?_group_cons (Ne.symm hfront.1),
      replaceFirstM?_eq_none hfront.2.1, pure_bind, ih hfront.2.2, Functor.map_map]
    simp only [Option.map_map, Function.comp_def, List.cons_append]

/-- Changing the first node of a number runs the change on it, once, and puts the answer at its place. -/
theorem replaceFirstM?_fill {place : Place} {node : Node} (hid : node.id = id)
    (hbefore : id ∉ place.idsBefore) :
    replaceFirstM? id change (place.fill [node]) =
      (fun changed => some (place.fillPruned changed.toList)) <$> change node := by
  induction place with
  | among before after =>
    rw [Place.fill, List.append_assoc, replaceFirstM?_append hbefore, List.singleton_append,
      replaceFirstM?_of_id_eq hid, Functor.map_map]
    simp only [Option.map_some, Place.fillPruned, List.append_assoc]
  | inside before groupId logic negated place after ih =>
    simp only [Place.idsBefore, List.mem_append, List.mem_cons, not_or] at hbefore
    obtain ⟨hfront, hgroup, hinner⟩ := hbefore
    rw [Place.fill, replaceFirstM?_append hfront, replaceFirstM?_group_cons (Ne.symm hgroup),
      ih hinner, bind_map_left, map_bind, map_eq_pure_bind _ (change node)]
    refine bind_congr fun changed => ?_
    rw [Place.fillPruned]
    cases place.fillPruned changed.toList <;> simp

end

/-- Without effects, changing the first node of a number changes what stands at its place. -/
theorem replaceFirst?_fill {id : Int} {change : Node → Option Node} {place : Place} {node : Node}
    (hid : node.id = id) (hbefore : id ∉ place.idsBefore) :
    replaceFirst? id change (place.fill [node]) =
      some (place.fillPruned (change node).toList) := by
  rw [replaceFirst?, replaceFirstM?_fill hid hbefore, map_pure]
  rfl

end Forest

end DisplayFilter
