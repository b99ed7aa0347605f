import Mathlib.Logic.Relation
import DisplayFilter.Proofs.Tree.Valid
/-!
# What a removal leaves

A removal stops at the first node of its number and drops the groups around it that are left empty. That
comes to pruning: deleting the node of that number wherever it is, and every group all of whose children
are deleted. When nothing would be left the whole removal is refused (`Valid.remove?_eq`).

What goes is one node with all below it: the one reached from the removed node by climbing while the parent
has a single child (`ClimbsTo`). The removed node may be exchanged for its parent on each step of the climb,
as pruning either of them deletes both, and where the climb ends no group is left empty.
-/

namespace DisplayFilter

/-! ### Pruning -/

mutual

/-- What is left of a node without the nodes of that number, and without groups that lose all children. -/
def Node.prune (id : Int) : Node → List Node
  | .condition other logic field operator value =>
    if other = id then [] else [.condition other logic field operator value]
  | .group other logic negated children =>
    if other = id then []
    else match Forest.prune id children with
      | [] => []
      | left => [.group other logic negated left]

/-- What is left of siblings without the nodes of that number and the groups that lose all children. -/
def Forest.prune (id : Int) : List Node → List Node
  | [] => []
  | node :: rest => node.prune id ++ Forest.prune id rest

end

namespace Forest

variable {id : Int}

theorem prune_append (id : Int) (left right : Forest) :
    prune id (left ++ right) = prune id left ++ prune id right := by
  induction left with
  | nil => simp [prune]
  | cons node left ih => simp [prune, ih]

theorem prune_singleton (id : Int) (node : Node) : prune id [node] = node.prune id := by
  simp [prune]

theorem prune_group_of_ne {other : Int} (hne : other ≠ id) (logic : Logic) (negated : Bool)
    (children : Forest) :
    prune id [.group other logic negated children] =
      match prune id children with
      | [] => []
      | left => [.group other logic negated left] := by
  rw [prune_singleton, Node.prune, if_neg hne]

theorem prune_id (node : Node) : prune node.id [node] = [] := by
  cases node <;> simp [prune_singleton, Node.prune, Node.id]

theorem prune_of_children_eq {parent child : Node} (honly : parent.children = [child]) :
    prune child.id [parent] = [] := by
  cases parent with
  | condition => simp [Node.children] at honly
  | group id logic negated children =>
    change children = [child] at honly
    by_cases hid : id = child.id
    · rw [← hid]
      exact prune_id (.group id logic negated children)
    · rw [prune_group_of_ne hid, honly, prune_id]

theorem prune_eq_self {forest : Forest} (hformed : wellFormed forest = true) (hid : id ∉ ids forest) :
    prune id forest = forest := by
  induction forest using Forest.induction with
  | nil => rw [prune]
  | condition other logic field operator value rest ih =>
    rw [ids_condition_cons, List.mem_cons, not_or] at hid
    rw [wellFormed_cons, Bool.and_eq_true] at hformed
    rw [prune, Node.prune, if_neg (Ne.symm hid.1), ih hformed.2 hid.2, List.singleton_append]
  | group other logic negated children rest ihChildren ihRest =>
    rw [ids_group_cons, List.mem_cons, List.mem_append, not_or, not_or] at hid
    rw [wellFormed_cons, Bool.and_eq_true, Node.wellFormed_group] at hformed
    obtain ⟨⟨hchildren, hinner⟩, hrest⟩ := hformed
    rw [prune, ihRest hrest hid.2.2, Node.prune, if_neg (Ne.symm hid.1), ihChildren hinner hid.2.1]
    cases children with
    | nil => exact absurd rfl hchildren
    | cons first others => rfl

/-- Pruning reaches what stands at a place, and from there the groups around it. -/
theorem prune_fill {place : Place} (hformed : place.wellFormed = true) (hbefore : id ∉ place.idsBefore)
    (hafter : id ∉ place.idsAfter) (content : Forest) :
    prune id (place.fill content) = place.fillPruned (prune id content) := by
  induction place with
  | among before after =>
    simp only [Place.wellFormed, Bool.and_eq_true] at hformed
    rw [Place.fill, prune_append, prune_append, prune_eq_self hformed.1 hbefore,
      prune_eq_self hformed.2 hafter, Place.fillPruned]
  | inside before other logic negated place after ih =>
    simp only [Place.wellFormed, Bool.and_eq_true] at hformed
    simp only [Place.idsBefore, List.mem_append, List.mem_cons, not_or] at hbefore
    simp only [Place.idsAfter, List.mem_append, not_or] at hafter
    obtain ⟨⟨hfront, hplace⟩, hback⟩ := hformed
    rw [Place.fill, prune_append, prune_eq_self hfront hbefore.1, ← List.singleton_append, prune_append,
      prune_group_of_ne (Ne.symm hbefore.2.1), ih hplace hbefore.2.2 hafter.1,
      prune_eq_self hback hafter.2, Place.fillPruned]
    cases place.fillPruned (prune id content) <;> rfl

end Forest

/-! ### Climbing -/

namespace Forest

/-- A node of the forest has this one as its only child. -/
def IsOnlyChild (forest : Forest) (child parent : Node) : Prop :=
  parent ∈ walk forest ∧ parent.children = [child]

/-- The last node on the way up from a node through parents with a single child. -/
structure ClimbsTo (forest : Forest) (node top : Node) : Prop where
  climb : Relation.ReflTransGen (IsOnlyChild forest) node top
  stop : ∀ parent, ¬ IsOnlyChild forest top parent

theorem length_walk_le {forest : Forest} {node : Node} (hnode : node ∈ walk forest) :
    node.walk.length ≤ (walk forest).length := by
  obtain ⟨place, rfl⟩ := exists_place_of_mem_walk hnode
  clear hnode
  induction place with
  | among before after =>
    simp only [Place.fill, walk_append, walk_cons, walk_nil, List.length_append]
    omega
  | inside before id logic negated place after ih =>
    simp only [Place.fill, walk_append, walk_cons, Node.walk_group, List.length_append,
      List.length_cons]
    omega

theorem length_walk_lt_of_children_eq {parent child : Node} (honly : parent.children = [child]) :
    child.walk.length < parent.walk.length := by
  cases parent with
  | condition => simp [Node.children] at honly
  | group id logic negated children =>
    change children = [child] at honly
    simp [honly]

/-- A climb ends, since parents have more nodes below them and no node has more than the forest. -/
theorem exists_climbsTo (forest : Forest) (node : Node) : ∃ top, ClimbsTo forest node top := by
  by_cases hparent : ∃ parent, IsOnlyChild forest node parent
  · obtain ⟨parent, honly⟩ := hparent
    have hle := length_walk_le honly.1
    have hlt := length_walk_lt_of_children_eq honly.2
    obtain ⟨top, hclimb, hstop⟩ := exists_climbsTo forest parent
    exact ⟨top, .head honly hclimb, hstop⟩
  · exact ⟨node, .refl, fun parent honly => hparent ⟨parent, honly⟩⟩
  termination_by (walk forest).length - node.walk.length

end Forest

theorem Place.fill_of_fill_nil {place : Place} (hempty : place.fill [] = []) (content : Forest) :
    place.fill content = content := by
  cases place with
  | among before after =>
    simp only [fill, List.append_nil, List.append_eq_nil_iff] at hempty
    simp [fill, hempty]
  | inside before id logic negated place after => simp [fill] at hempty

/-- Where the climb ends no group is left empty, so nothing is pruned around the place. -/
theorem Place.fillPruned_nil {place : Place} {top : Node}
    (hstop : ∀ parent, ¬ Forest.IsOnlyChild (place.fill [top]) top parent) :
    place.fillPruned [] = place.fill [] := by
  induction place with
  | among before after => rfl
  | inside before id logic negated place after ih =>
    have hinner : place.fillPruned [] = place.fill [] := by
      refine ih fun parent honly => hstop parent ⟨?_, honly.2⟩
      rw [fill, Forest.walk_append, Forest.walk_cons, Node.walk_group]
      simp [honly.1]
    -- A group left empty would have been the parent of a single child.
    have hleft : place.fill [] ≠ [] := by
      intro hempty
      refine hstop (.group id logic negated (place.fill [top])) ⟨?_, fill_of_fill_nil hempty [top]⟩
      rw [fill, Forest.walk_append, Forest.walk_cons]
      simp
    rw [fillPruned, hinner, fill]
    split
    · rename_i hempty
      exact absurd hempty hleft
    · rfl

/-! ### Removal from a valid tree -/

namespace Tree

variable {tree : Tree}

theorem Valid.prune_eq (hvalid : tree.Valid) {place : Place} {content : Forest}
    (hfill : place.fill content = tree.roots) {id : Int} (hid : id ∈ Forest.ids content) :
    Forest.prune id tree.roots = place.fillPruned (Forest.prune id content) := by
  have hroots := hvalid.wellFormed
  rw [← hfill] at hroots
  obtain ⟨hbefore, hafter⟩ := hvalid.not_mem_around hfill hid
  rw [← hfill, Forest.prune_fill (Place.wellFormed_of_fill hroots).1 hbefore hafter]

theorem Valid.prune_id_eq (hvalid : tree.Valid) {place : Place} {node : Node}
    (hfill : place.fill [node] = tree.roots) :
    Forest.prune node.id tree.roots = place.fillPruned [] := by
  have hid : node.id ∈ Forest.ids [node] := by simp [Node.ids_singleton]
  rw [hvalid.prune_eq hfill hid, Forest.prune_id]

/-- An only child and its parent are pruned alike. -/
theorem Valid.prune_id_eq_of_isOnlyChild (hvalid : tree.Valid) {child parent : Node}
    (honly : Forest.IsOnlyChild tree.roots child parent) :
    Forest.prune child.id tree.roots = Forest.prune parent.id tree.roots := by
  obtain ⟨place, hfill⟩ := Forest.exists_place_of_mem_walk honly.1
  have hid : child.id ∈ Forest.ids [parent] := by
    rw [Node.ids_singleton, honly.2, Node.ids_singleton]
    simp
  rw [hvalid.prune_eq hfill hid, Forest.prune_of_children_eq honly.2, hvalid.prune_id_eq hfill]

theorem Valid.prune_id_eq_of_climb (hvalid : tree.Valid) {node top : Node}
    (hclimb : Relation.ReflTransGen (Forest.IsOnlyChild tree.roots) node top)
    (hnode : node ∈ Forest.walk tree.roots) :
    top ∈ Forest.walk tree.roots ∧
      Forest.prune node.id tree.roots = Forest.prune top.id tree.roots := by
  induction hclimb with
  | refl => exact ⟨hnode, rfl⟩
  | tail _ honly ih => exact ⟨honly.1, ih.2.trans (hvalid.prune_id_eq_of_isOnlyChild honly)⟩

/-- The node where the climb ends is what pruning takes out of its place. -/
theorem Valid.exists_place_of_climbsTo (hvalid : tree.Valid) {node top : Node}
    (hnode : node ∈ Forest.walk tree.roots) (hclimbs : Forest.ClimbsTo tree.roots node top) :
    ∃ place : Place, place.fill [top] = tree.roots ∧
      place.fill [] = Forest.prune node.id tree.roots := by
  obtain ⟨htop, hprune⟩ := hvalid.prune_id_eq_of_climb hclimbs.climb hnode
  obtain ⟨place, hfill⟩ := Forest.exists_place_of_mem_walk htop
  have hstop := hclimbs.stop
  rw [← hfill] at hstop
  refine ⟨place, hfill, ?_⟩
  rw [hprune, hvalid.prune_id_eq hfill, Place.fillPruned_nil hstop]

theorem Valid.not_mem_ids_fill_nil_iff (hvalid : tree.Valid) {place : Place} {top : Node}
    (hfill : place.fill [top] = tree.roots) {id : Int} (hid : id ∈ tree.ids) :
    id ∉ Forest.ids (place.fill []) ↔ id ∈ Forest.ids [top] := by
  rw [ids, ← hfill, Place.ids_fill, List.mem_append, List.mem_append] at hid
  rw [Place.ids_fill, Forest.ids_nil, List.append_nil, List.mem_append]
  constructor
  · intro hgone
    rcases hid with (hbefore | htop) | hafter
    · exact absurd (.inl hbefore) hgone
    · exact htop
    · exact absurd (.inr hafter) hgone
  · intro htop hleft
    obtain ⟨hbefore, hafter⟩ := hvalid.not_mem_around hfill htop
    exact hleft.elim hbefore hafter

/-- A removal prunes the forest, and does not apply where nothing is pruned or nothing would be left. -/
theorem Valid.remove?_eq (hvalid : tree.Valid) (id : Int) :
    tree.remove? id = .ok (if id ∉ tree.ids ∨ Forest.prune id tree.roots = [] then none
      else some ⟨Forest.prune id tree.roots, tree.nextId⟩) := by
  rcases hvalid.remove?_cases id with ⟨hfind, hremove⟩ |
    ⟨node, place, hfind, hfill, _, hempty, hremove⟩ |
    ⟨node, place, hfind, hfill, _, hremove, hedited⟩
  · have hid : id ∉ tree.ids := Forest.find?_eq_none_iff.1 hfind
    rw [hremove, if_pos (.inl hid)]
  · obtain rfl := Forest.id_of_find? hfind
    have hprune := hvalid.prune_id_eq hfill
    rw [hremove, if_pos (.inr (hprune.trans hempty))]
  · have hid : id ∈ tree.ids :=
      List.mem_map.2 ⟨node, List.mem_of_find?_eq_some hfind, Forest.id_of_find? hfind⟩
    obtain rfl := Forest.id_of_find? hfind
    rw [hremove, hvalid.prune_id_eq hfill, if_neg]
    exact not_or.2 ⟨not_not_intro hid, hedited.nonempty⟩

end Tree

/-- Removing a number prunes the forest: the number goes, and all groups whose children have all gone. The
tree stays as it is when the number does not occur or nothing would be left. Of a number that occurs, the
node reached by climbing through parents with a single child goes with all below it, and all around its
place stays. -/
theorem remove_eq_prune {tree : Tree} (hvalid : tree.Valid) (id : Int) :
    (Edit.remove (.int id)).run tree =
        .ok (if id ∉ tree.ids ∨ Forest.prune id tree.roots = [] then tree
          else ⟨Forest.prune id tree.roots, tree.nextId⟩) ∧
      ∀ node, tree.find? id = some node →
        (∃ top, Forest.ClimbsTo tree.roots node top) ∧
        ∀ top, Forest.ClimbsTo tree.roots node top →
          (∃ place : Place, place.fill [top] = tree.roots ∧
            place.fill [] = Forest.prune id tree.roots) ∧
          ∀ other ∈ tree.ids,
            other ∉ Forest.ids (Forest.prune id tree.roots) ↔ other ∈ Forest.ids [top] := by
  refine ⟨?_, fun node hfind => ⟨Forest.exists_climbsTo tree.roots node, fun top hclimbs => ?_⟩⟩
  · change (tree.remove? id).map (·.getD tree) = _
    rw [hvalid.remove?_eq id]
    by_cases hsame : id ∉ tree.ids ∨ Forest.prune id tree.roots = []
    · rw [if_pos hsame, if_pos hsame]
      rfl
    · rw [if_neg hsame, if_neg hsame]
      rfl
  · obtain rfl := Forest.id_of_find? hfind
    have hnode : node ∈ Forest.walk tree.roots := List.mem_of_find?_eq_some hfind
    obtain ⟨place, hfill, hleft⟩ := hvalid.exists_place_of_climbsTo hnode hclimbs
    refine ⟨⟨place, hfill, hleft⟩, fun other hother => ?_⟩
    rw [← hleft]
    exact hvalid.not_mem_ids_fill_nil_iff hfill hother

/-- A removal that takes two groups along, one inside the other, and leaves the root behind them. -/
theorem remove_eq_prune_nested :
    let inner : Node := .group 4 .or true [.presence 1 "tcp"]
    let outer : Node := .group 3 .and false [inner]
    let tree : Tree := ⟨[outer, .presence 7 "udp"], 8⟩
    tree.Valid ∧ (Edit.remove (.int 1)).run tree = .ok ⟨[.presence 7 "udp"], 8⟩ ∧
      Forest.ClimbsTo tree.roots (.presence 1 "tcp") outer ∧
      ∀ other ∈ tree.ids, other ∉ [7] ↔ other ∈ [3, 4, 1] := by
  intro inner outer tree
  have hmake : Tree.make tree.roots 8 = .ok tree := rfl
  have hvalid : tree.Valid := Tree.valid_of_make rfl hmake
  have hclimbs : Forest.ClimbsTo tree.roots (.presence 1 "tcp") outer := by
    have hinner : Forest.IsOnlyChild tree.roots (.presence 1 "tcp") inner :=
      ⟨by simp [tree, outer, inner], rfl⟩
    have houter : Forest.IsOnlyChild tree.roots inner outer := ⟨by simp [tree, outer], rfl⟩
    refine ⟨.head hinner (.head houter .refl), fun parent ⟨hparent, honly⟩ => ?_⟩
    simp only [tree, outer, inner, Node.presence, Forest.walk_cons, Node.walk_group, Node.walk_condition,
      Forest.walk_nil, List.append_nil, List.cons_append, List.nil_append, List.mem_cons,
      List.not_mem_nil, or_false] at hparent
    rcases hparent with rfl | rfl | rfl | rfl <;> simp [Node.children, outer, inner] at honly
  obtain ⟨hrun, hgone⟩ := remove_eq_prune hvalid 1
  exact ⟨hvalid, hrun, hclimbs, ((hgone _ rfl).2 outer hclimbs).2⟩

end DisplayFilter
