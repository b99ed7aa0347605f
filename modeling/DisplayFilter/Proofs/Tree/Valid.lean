import DisplayFilter.Proofs.Expression.Numbering
import DisplayFilter.Proofs.Tree.Patch
import DisplayFilter.Proofs.Tree.Place
/-!
# Valid trees

A valid tree has a root, no empty group, no number twice, and no number that is not below the next one.
`Tree.make` yields valid trees from well-formed forests (`valid_of_make`) and finds nothing to refuse in a
valid one (`Valid.make_eq`). One lemma for each edit says what it makes of a valid tree, and that the
result is valid again.
-/

namespace DisplayFilter

/-! ### The checks on a new tree -/

theorem firstDuplicate?_eq_none_iff {seen ids : List Int} :
    firstDuplicate? seen ids = none ↔ ids.Nodup ∧ ∀ id ∈ ids, id ∉ seen := by
  induction ids generalizing seen with
  | nil => simp [firstDuplicate?]
  | cons id rest ih =>
    rw [firstDuplicate?]
    split
    · rename_i hseen
      simp only [List.contains_eq_mem, decide_eq_true_eq] at hseen
      simp [hseen]
    · rename_i hseen
      simp only [List.contains_eq_mem, decide_eq_true_eq] at hseen
      rw [ih, List.nodup_cons]
      constructor
      · rintro ⟨hnodup, hrest⟩
        refine ⟨⟨fun hid => hrest id hid List.mem_cons_self, hnodup⟩, ?_⟩
        intro other hother
        rcases List.mem_cons.1 hother with rfl | hother
        · exact hseen
        · exact fun hin => hrest other hother (List.mem_cons_of_mem id hin)
      · rintro ⟨⟨hid, hnodup⟩, hrest⟩
        refine ⟨hnodup, fun other hother hin => ?_⟩
        rcases List.mem_cons.1 hin with rfl | hin
        · exact hid hother
        · exact hrest other (List.mem_cons_of_mem id hother) hin

/-- The number after all of these, and no lower than the given one. -/
def boundAbove (ids : List Int) (next : Int) : Int :=
  ids.foldl (fun bound id => max bound (id + 1)) next

theorem le_boundAbove (ids : List Int) (next : Int) : next ≤ boundAbove ids next := by
  induction ids generalizing next with
  | nil => exact Int.le_refl next
  | cons id rest ih =>
    have hrest := ih (max next (id + 1))
    simp only [boundAbove, List.foldl_cons] at hrest ⊢
    omega

theorem lt_boundAbove {ids : List Int} {id : Int} (hid : id ∈ ids) (next : Int) :
    id < boundAbove ids next := by
  induction ids generalizing next with
  | nil => simp at hid
  | cons other rest ih =>
    rcases List.mem_cons.1 hid with rfl | hrest
    · have hle := le_boundAbove rest (max next (id + 1))
      simp only [boundAbove, List.foldl_cons] at hle ⊢
      omega
    · exact ih hrest (max next (other + 1))

theorem boundAbove_eq_of_lt {ids : List Int} {next : Int} (hbelow : ∀ id ∈ ids, id < next) :
    boundAbove ids next = next := by
  induction ids with
  | nil => rfl
  | cons id rest ih =>
    have hid := hbelow id List.mem_cons_self
    have hmax : max next (id + 1) = next := by omega
    rw [boundAbove, List.foldl_cons, hmax]
    exact ih fun other hother => hbelow other (List.mem_cons_of_mem id hother)

namespace Tree

/-- What holds of every tree an editor can reach. -/
structure Valid (tree : Tree) : Prop where
  nonempty : tree.roots ≠ []
  wellFormed : Forest.wellFormed tree.roots = true
  nodup : tree.ids.Nodup
  below : ∀ id ∈ tree.ids, id < tree.nextId

theorem make_eq_ok {roots : Forest} (nextId : Int) (hne : roots ≠ [])
    (hnodup : (Forest.ids roots).Nodup) :
    make roots nextId = .ok ⟨roots, boundAbove (Forest.ids roots) nextId⟩ := by
  have hunique : firstDuplicate? [] (Forest.ids roots) = none :=
    firstDuplicate?_eq_none_iff.2 ⟨hnodup, by simp⟩
  rw [make, if_neg (by simpa using hne), hunique]
  rfl

theorem valid_of_make {roots : Forest} {nextId : Int} {tree : Tree}
    (hformed : Forest.wellFormed roots = true) (hmake : make roots nextId = .ok tree) :
    tree.Valid := by
  unfold make at hmake
  split at hmake
  · cases hmake
  · rename_i hne
    split at hmake
    · cases hmake
    · rename_i hunique
      cases hmake
      exact ⟨by simpa using hne, hformed, (firstDuplicate?_eq_none_iff.1 hunique).1,
        fun id hid => lt_boundAbove hid nextId⟩

/-- A valid tree passes all checks and keeps its next number. -/
theorem Valid.make_eq {tree : Tree} (hvalid : tree.Valid) :
    make tree.roots tree.nextId = .ok tree := by
  rw [make_eq_ok tree.nextId hvalid.nonempty hvalid.nodup]
  have hbound := boundAbove_eq_of_lt hvalid.below
  rw [ids] at hbound
  rw [hbound]

theorem valid_initial (field : String) : (initial field).Valid :=
  valid_of_make (by simp [Node.presence]) (make_presence field)

/-! ### Edits of a valid tree -/

variable {tree : Tree}

/-- What stands at a place of a valid tree may shrink, and grow by new numbers. -/
theorem Valid.fillPruned (hvalid : tree.Valid) {place : Place} {node : Node}
    (hfill : place.fill [node] = tree.roots) {content : Forest} {fresh : List Int} {nextId : Int}
    (hformed : Forest.wellFormed content = true)
    (hsub : (Forest.ids content).Sublist (Forest.ids [node] ++ fresh))
    (hfresh : Increasing tree.nextId nextId fresh) (hle : tree.nextId ≤ nextId)
    (hne : place.fillPruned content ≠ []) : Valid ⟨place.fillPruned content, nextId⟩ := by
  have hids : tree.ids = place.idsBefore ++ Forest.ids [node] ++ place.idsAfter := by
    rw [Tree.ids, ← hfill, Place.ids_fill]
  have hsublist : (Forest.ids (place.fillPruned content)).Sublist
      (place.idsBefore ++ (Forest.ids [node] ++ fresh) ++ place.idsAfter) := by
    refine (place.ids_fillPruned_sublist content).trans ?_
    rw [Place.ids_fill]
    exact ((List.Sublist.refl _).append hsub).append (List.Sublist.refl _)
  have hperm : (place.idsBefore ++ (Forest.ids [node] ++ fresh) ++ place.idsAfter).Perm
      (tree.ids ++ fresh) := by
    rw [hids, List.append_assoc, List.append_assoc, List.append_assoc, List.append_assoc]
    exact List.Perm.append_left _ (List.Perm.append_left _ List.perm_append_comm)
  have hnodup : (tree.ids ++ fresh).Nodup := by
    refine List.nodup_append.2 ⟨hvalid.nodup, hfresh.nodup, ?_⟩
    intro id hid other hother
    have hbelow := hvalid.below id hid
    have habove := (hfresh.bounds other hother).1
    omega
  refine ⟨hne, ?_, ?_, ?_⟩
  · have hroots := hvalid.wellFormed
    rw [← hfill] at hroots
    exact Place.wellFormed_fillPruned (Place.wellFormed_of_fill hroots).1 hformed
  · exact (hperm.nodup_iff.2 hnodup).sublist hsublist
  · intro id hid
    rcases List.mem_append.1 (hperm.subset (hsublist.subset hid)) with hold | hnew
    · have hbelow := hvalid.below id hold
      change id < nextId
      omega
    · exact (hfresh.bounds id hnew).2

theorem Valid.fill (hvalid : tree.Valid) {place : Place} {node : Node}
    (hfill : place.fill [node] = tree.roots) {content : Forest} {fresh : List Int} {nextId : Int}
    (hcontent : content ≠ []) (hformed : Forest.wellFormed content = true)
    (hsub : (Forest.ids content).Sublist (Forest.ids [node] ++ fresh))
    (hfresh : Increasing tree.nextId nextId fresh) (hle : tree.nextId ≤ nextId) :
    Valid ⟨place.fill content, nextId⟩ := by
  have hpruned := hvalid.fillPruned hfill hformed hsub hfresh hle
  rw [place.fillPruned_of_ne_nil hcontent] at hpruned
  exact hpruned (place.fill_ne_nil hcontent)

theorem Valid.wellFormed_of_fill (hvalid : tree.Valid) {place : Place} {node : Node}
    (hfill : place.fill [node] = tree.roots) : node.wellFormed = true := by
  have hroots := hvalid.wellFormed
  rw [← hfill] at hroots
  simpa using (Place.wellFormed_of_fill hroots).2

theorem Valid.nodup_fill (hvalid : tree.Valid) {place : Place} {content : Forest}
    (hfill : place.fill content = tree.roots) :
    (place.idsBefore ++ (Forest.ids content ++ place.idsAfter)).Nodup := by
  have hnodup := hvalid.nodup
  rwa [ids, ← hfill, Place.ids_fill, List.append_assoc] at hnodup

/-- The numbers at a place of a valid tree are not found around it. -/
theorem Valid.not_mem_around (hvalid : tree.Valid) {place : Place} {content : Forest}
    (hfill : place.fill content = tree.roots) {id : Int} (hid : id ∈ Forest.ids content) :
    id ∉ place.idsBefore ∧ id ∉ place.idsAfter := by
  obtain ⟨_, hinner, hbefore⟩ := List.nodup_append.1 (hvalid.nodup_fill hfill)
  have hafter := (List.nodup_append.1 hinner).2.2
  exact ⟨fun hfront => hbefore id hfront id (List.mem_append_left _ hid) rfl,
    fun hback => hafter id hid id hback rfl⟩

theorem Valid.not_mem_before (hvalid : tree.Valid) {place : Place} {node : Node}
    (hfill : place.fill [node] = tree.roots) : node.id ∉ place.idsBefore :=
  (hvalid.not_mem_around hfill (by simp [Node.ids_singleton])).1

theorem Valid.find?_eq (hvalid : tree.Valid) {place : Place} {node : Node}
    (hfill : place.fill [node] = tree.roots) : tree.find? node.id = some node := by
  rw [find?, ← hfill, Forest.find?_fill (hvalid.not_mem_before hfill)]

/-- Changing the node at a place changes what stands at the place. -/
theorem Valid.replaceFirst?_eq (hvalid : tree.Valid) {place : Place} {node : Node}
    (hfill : place.fill [node] = tree.roots) (change : Node → Option Node) :
    Forest.replaceFirst? node.id change tree.roots = some (place.fillPruned (change node).toList) := by
  rw [← hfill, Forest.replaceFirst?_fill rfl (hvalid.not_mem_before hfill)]

/-- A patch that is not refused changes the node at its place. -/
theorem Valid.update?_at (hvalid : tree.Valid) {place : Place} {node patched : Node} {patch : Patch}
    (hfill : place.fill [node] = tree.roots) (hpatch : node.applyPatch patch = .ok patched) :
    tree.update? node.id patch = .ok (some ⟨place.fill [patched], tree.nextId⟩) ∧
      Valid ⟨place.fill [patched], tree.nextId⟩ := by
  have hframe := Node.applyPatch_frame hpatch
  have hedited : Valid ⟨place.fill [patched], tree.nextId⟩ := by
    refine hvalid.fill hfill (by simp) ?_ ?_ Increasing.nil (Int.le_refl _)
    · simpa [hframe.wellFormed_eq] using hvalid.wellFormed_of_fill hfill
    · simp [hframe.ids_eq]
  have hreplace := hvalid.replaceFirst?_eq hfill fun _ => some patched
  rw [Option.toList_some, place.fillPruned_of_ne_nil (by simp)] at hreplace
  have hmake := hedited.make_eq
  refine ⟨?_, hedited⟩
  rw [update?, hvalid.find?_eq hfill]
  simp only [hpatch, hreplace, Option.getD_some, bind, Except.bind, pure, Except.pure] at hmake ⊢
  rw [hmake]

/-- An update changes the node at its place, if there is one and the patch is not refused. -/
theorem Valid.update?_cases (hvalid : tree.Valid) (id : Int) (patch : Patch) :
    (tree.find? id = none ∧ tree.update? id patch = .ok none) ∨
    (∃ node fault, tree.find? id = some node ∧ node.applyPatch patch = .error fault ∧
      tree.update? id patch = .error fault) ∨
    (∃ (node patched : Node) (place : Place),
      tree.find? id = some node ∧ node.applyPatch patch = .ok patched ∧
      place.fill [node] = tree.roots ∧ id ∉ place.idsBefore ∧
      tree.update? id patch = .ok (some ⟨place.fill [patched], tree.nextId⟩) ∧
      Valid ⟨place.fill [patched], tree.nextId⟩) := by
  cases hfind : tree.find? id with
  | none => exact .inl ⟨rfl, by rw [update?, hfind]⟩
  | some node =>
    refine .inr ?_
    cases hpatch : node.applyPatch patch with
    | error fault =>
      exact .inl ⟨node, fault, rfl, hpatch, by simp [update?, hfind, hpatch, bind, Except.bind]⟩
    | ok patched =>
      obtain ⟨place, hfill, hbefore⟩ := Forest.exists_place_of_find? hfind
      obtain rfl := Forest.id_of_find? hfind
      obtain ⟨hupdate, hedited⟩ := hvalid.update?_at hfill hpatch
      exact .inr ⟨node, patched, place, rfl, hpatch, hfill, hbefore, hupdate, hedited⟩

theorem newNode_frame (kind : NodeKind) (id : Int) :
    (newNode kind id).1.wellFormed = true ∧ id ≤ (newNode kind id).2 ∧
      Increasing id (newNode kind id).2 (Forest.ids [(newNode kind id).1]) := by
  have hfirst : Increasing id (id + 1) [id] := Increasing.nil.concat (Int.le_refl id)
  cases kind with
  | condition =>
    refine ⟨by simp [newNode, Node.presence], ?_, by simpa [newNode, Node.presence] using hfirst⟩
    change id ≤ id + 1
    omega
  | group =>
    have hboth := hfirst.concat (by omega)
    refine ⟨by simp [newNode, Node.presence, Node.wellFormed_group], ?_, ?_⟩
    · change id ≤ id + 2
      omega
    · simpa [newNode, Node.presence, Int.add_assoc] using hboth

/-- A new root stands behind all others. -/
theorem Valid.addRoot_eq (hvalid : tree.Valid) (kind : NodeKind) :
    tree.addRoot kind =
        .ok ⟨tree.roots ++ [(newNode kind tree.nextId).1], (newNode kind tree.nextId).2⟩ ∧
      Valid ⟨tree.roots ++ [(newNode kind tree.nextId).1], (newNode kind tree.nextId).2⟩ := by
  obtain ⟨hformed, hle, hfresh⟩ := newNode_frame kind tree.nextId
  have hedited :
      Valid ⟨tree.roots ++ [(newNode kind tree.nextId).1], (newNode kind tree.nextId).2⟩ := by
    refine ⟨by simp, by simp [hvalid.wellFormed, hformed], ?_, ?_⟩
    · rw [ids, Forest.ids_append]
      refine List.nodup_append.2 ⟨hvalid.nodup, hfresh.nodup, fun id hid other hother => ?_⟩
      have hbelow := hvalid.below id hid
      have habove := (hfresh.bounds other hother).1
      omega
    · intro id hid
      rw [ids, Forest.ids_append] at hid
      rcases List.mem_append.1 hid with hold | hnew
      · exact Int.lt_of_lt_of_le (hvalid.below id hold) hle
      · exact (hfresh.bounds id hnew).2
  exact ⟨hedited.make_eq, hedited⟩

/-- A new child stands behind its siblings in the group at a place. -/
theorem Valid.addChild?_at (hvalid : tree.Valid) {place : Place} {id : Int} {logic : Logic}
    {negated : Bool} {children : Forest}
    (hfill : place.fill [.group id logic negated children] = tree.roots) (kind : NodeKind) :
    tree.addChild? id kind = .ok (some
        ⟨place.fill [.group id logic negated (children ++ [(newNode kind tree.nextId).1])],
          (newNode kind tree.nextId).2⟩) ∧
      Valid ⟨place.fill [.group id logic negated (children ++ [(newNode kind tree.nextId).1])],
        (newNode kind tree.nextId).2⟩ := by
  obtain ⟨hnew, hle, hfresh⟩ := newNode_frame kind tree.nextId
  have hgroup := (Node.wellFormed_group id logic negated children).1 (hvalid.wellFormed_of_fill hfill)
  have hedited : Valid
      ⟨place.fill [.group id logic negated (children ++ [(newNode kind tree.nextId).1])],
        (newNode kind tree.nextId).2⟩ := by
    refine hvalid.fill hfill (by simp) ?_ ?_ hfresh hle
    · simp [Node.wellFormed_group, hgroup.2, hnew]
    · simp [Forest.ids_append]
  have hfind : tree.find? id = some (.group id logic negated children) := hvalid.find?_eq hfill
  have hreplace : Forest.replaceFirst? id
      (fun group => some (appendChild (newNode kind tree.nextId).1 group)) tree.roots =
      some (place.fill [.group id logic negated (children ++ [(newNode kind tree.nextId).1])]) :=
    (hvalid.replaceFirst?_eq hfill _).trans
      (congrArg some (place.fillPruned_of_ne_nil (List.cons_ne_nil _ _)))
  have hmake := hedited.make_eq
  refine ⟨?_, hedited⟩
  simp only [addChild?, hfind, hreplace, Option.getD_some, bind, Except.bind, pure, Except.pure] at hmake ⊢
  rw [hmake]

/-- A new child stands behind its siblings in the group of that number, if there is one. -/
theorem Valid.addChild?_cases (hvalid : tree.Valid) (parent : Int) (kind : NodeKind) :
    ((∀ id logic negated children, tree.find? parent ≠ some (.group id logic negated children)) ∧
      tree.addChild? parent kind = .ok none) ∨
    (∃ id logic negated children, ∃ place : Place,
      tree.find? parent = some (.group id logic negated children) ∧
      place.fill [.group id logic negated children] = tree.roots ∧ parent ∉ place.idsBefore ∧
      tree.addChild? parent kind = .ok (some
        ⟨place.fill [.group id logic negated (children ++ [(newNode kind tree.nextId).1])],
          (newNode kind tree.nextId).2⟩) ∧
      Valid ⟨place.fill [.group id logic negated (children ++ [(newNode kind tree.nextId).1])],
        (newNode kind tree.nextId).2⟩) := by
  cases hfind : tree.find? parent with
  | none => exact .inl ⟨by simp, by rw [addChild?, hfind]⟩
  | some node =>
    cases node with
    | condition => exact .inl ⟨by simp, by rw [addChild?, hfind]⟩
    | group id logic negated children =>
      obtain ⟨place, hfill, hbefore⟩ := Forest.exists_place_of_find? hfind
      obtain rfl : id = parent := Forest.id_of_find? hfind
      obtain ⟨hadd, hedited⟩ := hvalid.addChild?_at hfill kind
      exact .inr ⟨id, logic, negated, children, place, rfl, hfill, hbefore, hadd, hedited⟩

/-- A removal empties the place of a node, if something is left. -/
theorem Valid.remove?_at (hvalid : tree.Valid) {place : Place} {node : Node}
    (hfill : place.fill [node] = tree.roots) (hleft : place.fillPruned [] ≠ []) :
    tree.remove? node.id = .ok (some ⟨place.fillPruned [], tree.nextId⟩) ∧
      Valid ⟨place.fillPruned [], tree.nextId⟩ := by
  have hedited : Valid ⟨place.fillPruned [], tree.nextId⟩ :=
    hvalid.fillPruned hfill (by simp) (by simp) Increasing.nil (Int.le_refl _) hleft
  have hreplace := hvalid.replaceFirst?_eq hfill fun _ => none
  have hmake := hedited.make_eq
  refine ⟨?_, hedited⟩
  simp only [remove?, hvalid.find?_eq hfill, hreplace, Option.toList_none]
  cases hroots : place.fillPruned [] with
  | nil => exact absurd hroots hleft
  | cons first others =>
    rw [hroots] at hmake
    exact congrArg (Except.map some) hmake

/-- A removal empties the place of a number, if there is one and something is left. -/
theorem Valid.remove?_cases (hvalid : tree.Valid) (id : Int) :
    (tree.find? id = none ∧ tree.remove? id = .ok none) ∨
    (∃ (node : Node) (place : Place), tree.find? id = some node ∧ place.fill [node] = tree.roots ∧
      id ∉ place.idsBefore ∧ place.fillPruned [] = [] ∧ tree.remove? id = .ok none) ∨
    (∃ (node : Node) (place : Place), tree.find? id = some node ∧ place.fill [node] = tree.roots ∧
      id ∉ place.idsBefore ∧
      tree.remove? id = .ok (some ⟨place.fillPruned [], tree.nextId⟩) ∧
      Valid ⟨place.fillPruned [], tree.nextId⟩) := by
  cases hfind : tree.find? id with
  | none => exact .inl ⟨rfl, by rw [remove?, hfind]⟩
  | some node =>
    refine .inr ?_
    obtain ⟨place, hfill, hbefore⟩ := Forest.exists_place_of_find? hfind
    obtain rfl := Forest.id_of_find? hfind
    by_cases hleft : place.fillPruned [] = []
    · have hreplace := hvalid.replaceFirst?_eq hfill fun _ => none
      rw [Option.toList_none, hleft] at hreplace
      exact .inl ⟨node, place, rfl, hfill, hbefore, hleft, by simp only [remove?, hfind, hreplace]⟩
    · obtain ⟨hremove, hedited⟩ := hvalid.remove?_at hfill hleft
      exact .inr ⟨node, place, rfl, hfill, hbefore, hremove, hedited⟩

/-- Loading an expression replaces the roots, unless nothing was read. -/
theorem load?_cases (tree : Tree) (text : String) :
    ((Reading.ofText text tree.nextId).forest = [] ∧ tree.load? text = .ok none) ∨
    (∃ nextId, tree.load? text =
        .ok (some ⟨(Reading.ofText text tree.nextId).forest, nextId⟩) ∧
      tree.nextId ≤ nextId ∧ Valid ⟨(Reading.ofText text tree.nextId).forest, nextId⟩) := by
  have hnumbered := Reading.numbered_ofText text tree.nextId
  unfold load?
  split
  · rename_i hempty
    exact .inl ⟨hempty, rfl⟩
  · rename_i hne
    have hmake := make_eq_ok tree.nextId hne hnumbered.increasing.nodup
    refine .inr ⟨_, ?_, le_boundAbove _ _, valid_of_make hnumbered.wellFormed hmake⟩
    rw [hmake]
    rfl

end Tree

end DisplayFilter
