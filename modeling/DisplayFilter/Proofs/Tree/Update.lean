import DisplayFilter.Expression.Printer
import DisplayFilter.Proofs.Filter.Map
import DisplayFilter.Proofs.Tree.Valid
/-!
# What an update changes

An update stops at the first node of its number and builds the groups around it anew. That comes to a map
over the whole forest that patches the nodes of that number (`Valid.mapAll_patchAt`), of which there is one.
The numbers stay and so does the nesting, since the patched node keeps its number and its children. The text
of the forest changes in one piece: the node's own text stands between two strings in which only its
combinator has a part (`Place.exists_text_around`).
-/

namespace DisplayFilter

/-! ### Nesting -/

mutual

/-- The numbers at and below a node, each with the number of its parent. -/
def Node.nesting (parent : Option Int) : Node → List (Int × Option Int)
  | .condition id .. => [(id, parent)]
  | .group id _ _ children => (id, parent) :: Forest.nesting (some id) children

/-- The numbers of siblings and of all below them, each with the number of its parent. -/
def Forest.nesting (parent : Option Int) : List Node → List (Int × Option Int)
  | [] => []
  | node :: rest => node.nesting parent ++ Forest.nesting parent rest

end

theorem Forest.nesting_append (parent : Option Int) (left right : Forest) :
    nesting parent (left ++ right) = nesting parent left ++ nesting parent right := by
  induction left with
  | nil => simp [nesting]
  | cons node left ih => simp [nesting, ih]

theorem Node.nesting_eq (parent : Option Int) (node : Node) :
    node.nesting parent = (node.id, parent) :: Forest.nesting (some node.id) node.children := by
  cases node <;> simp [nesting, id, children, Forest.nesting]

theorem Node.SameFrame.nesting_eq {node patched : Node} (hframe : SameFrame node patched)
    (parent : Option Int) : patched.nesting parent = node.nesting parent := by
  rw [Node.nesting_eq, Node.nesting_eq, hframe.id, hframe.children]

/-- A node that keeps its nesting keeps the nesting around it. -/
theorem Place.nesting_fill_eq {node changed : Node}
    (hsame : ∀ parent, changed.nesting parent = node.nesting parent) (place : Place)
    (parent : Option Int) :
    Forest.nesting parent (place.fill [changed]) = Forest.nesting parent (place.fill [node]) := by
  induction place generalizing parent with
  | among before after =>
    simp only [fill, Forest.nesting_append, Forest.nesting, hsame]
  | inside before id logic negated place after ih =>
    simp only [fill, Forest.nesting_append, Forest.nesting, Node.nesting, ih]

/-! ### Text -/

theorem Printer.siblings_append (first : Bool) (left right : Forest) :
    siblings first (left ++ right) =
      siblings first left ++ siblings (first && left.isEmpty) right := by
  induction left generalizing first with
  | nil => simp [siblings]
  | cons node left ih =>
    rw [List.cons_append, siblings, ih, siblings]
    simp

/-- The text around a place depends on the combinator of the node at the place, and on nothing else of it. -/
theorem Place.exists_text_around (place : Place) (logic : Logic) (first : Bool) :
    ∃ front back : List Char, ∀ node : Node, node.logic = logic →
      Printer.siblings first (place.fill [node]) = front ++ Printer.node node ++ back := by
  induction place generalizing first with
  | among before after =>
    refine ⟨Printer.siblings first before ++
      (if first && before.isEmpty then [] else Printer.connective logic),
      Printer.siblings false after, fun node hlogic => ?_⟩
    rw [fill, List.append_assoc, Printer.siblings_append, List.singleton_append, Printer.siblings, hlogic]
    simp only [List.append_assoc]
  | inside before id groupLogic negated place after ih =>
    obtain ⟨front, back, hinner⟩ := ih true
    refine ⟨Printer.siblings first before ++
      (if first && before.isEmpty then [] else Printer.connective groupLogic) ++
      (if negated then ['!'] else []) ++ '(' :: front,
      back ++ [')'] ++ Printer.siblings false after, fun node hlogic => ?_⟩
    rw [fill, Printer.siblings_append, Printer.siblings, Printer.node, hinner node hlogic, Node.logic]
    simp only [List.append_assoc, List.cons_append]

/-! ### Updates of a valid tree -/

/-- The node with a patch, if it is the node of that number. -/
def Node.patchAt (id : Int) (patch : Patch) (node : Node) : Node :=
  if node.id = id then node.patched patch else node

theorem Node.patchAt_of_ne {id : Int} {patch : Patch} {node : Node} (hne : node.id ≠ id) :
    node.patchAt id patch = node :=
  if_neg hne

/-- A map for one number only changes what stands at the place of the number. -/
theorem Forest.mapAll_fill {change : Node → Node} {id : Int}
    (hother : ∀ node : Node, node.id ≠ id → change node = node) {place : Place}
    (hbefore : id ∉ place.idsBefore) (hafter : id ∉ place.idsAfter) (content : Forest) :
    mapAll change (place.fill content) = place.fill (mapAll change content) := by
  induction place with
  | among before after =>
    rw [Place.fill, mapAll_append, mapAll_append, mapAll_eq_self_of_not_mem hother hbefore,
      mapAll_eq_self_of_not_mem hother hafter, Place.fill]
  | inside before groupId logic negated place after ih =>
    simp only [Place.idsBefore, List.mem_append, List.mem_cons, not_or] at hbefore
    simp only [Place.idsAfter, List.mem_append, not_or] at hafter
    obtain ⟨hfront, hgroup, hinner⟩ := hbefore
    have hkept : change (.group groupId logic negated (place.fill (mapAll change content))) =
        .group groupId logic negated (place.fill (mapAll change content)) := hother _ (Ne.symm hgroup)
    rw [Place.fill, mapAll_append, mapAll_eq_self_of_not_mem hother hfront, mapAll_group_cons,
      ih hinner hafter.1, hkept, mapAll_eq_self_of_not_mem hother hafter.2, Place.fill]

namespace Tree

variable {tree : Tree} {node : Node} {patch : Patch}

/-- Patching all nodes of the number of a node at a place patches that node. -/
theorem Valid.mapAll_patchAt (hvalid : tree.Valid) {place : Place}
    (hfill : place.fill [node] = tree.roots) (patch : Patch) :
    Forest.mapAll (Node.patchAt node.id patch) tree.roots = place.fill [node.patched patch] := by
  have hother : ∀ other : Node, other.id ≠ node.id → other.patchAt node.id patch = other :=
    fun other hne => Node.patchAt_of_ne hne
  have hself : node.id ∈ Forest.ids [node] := by simp [Node.ids_singleton]
  obtain ⟨hbefore, hafter⟩ := hvalid.not_mem_around hfill hself
  have hnodup : (Forest.ids [node]).Nodup :=
    (List.nodup_append.1 (List.nodup_append.1 (hvalid.nodup_fill hfill)).2.1).1
  rw [Node.ids_singleton, List.nodup_cons] at hnodup
  have hnode : node.patchAt node.id patch = node.patched patch := if_pos rfl
  rw [← hfill, Forest.mapAll_fill hother hbefore hafter, Forest.mapAll_singleton hother hnodup.1, hnode]

/-- What an update makes of a tree: all that stays, and where the patch shows. -/
structure UpdatesTo (tree : Tree) (node : Node) (patch : Patch) (next : Tree) : Prop where
  roots : next.roots = Forest.mapAll (Node.patchAt node.id patch) tree.roots
  nextId : next.nextId = tree.nextId
  ids : next.ids = tree.ids
  nesting : Forest.nesting none next.roots = Forest.nesting none tree.roots
  found : next.find? node.id = some (node.patched patch)
  children : (node.patched patch).children = node.children
  text : (∀ entry ∈ patch, entry.1 ≠ "logic") → ∃ front back : String,
    tree.roots.text = front ++ node.text ++ back ∧
      next.roots.text = front ++ (node.patched patch).text ++ back

theorem Valid.updatesTo (hvalid : tree.Valid) {place : Place} (hfill : place.fill [node] = tree.roots)
    (haccepts : ∀ entry ∈ patch, node.kind.Accepts entry) :
    tree.update? node.id patch = .ok (some ⟨place.fill [node.patched patch], tree.nextId⟩) ∧
      tree.UpdatesTo node patch ⟨place.fill [node.patched patch], tree.nextId⟩ := by
  have hpatch := Node.applyPatch_eq_ok_iff.2 ⟨haccepts, rfl⟩
  have hframe := node.patched_frame patch
  obtain ⟨hupdate, hedited⟩ := hvalid.update?_at hfill hpatch
  refine ⟨hupdate, (hvalid.mapAll_patchAt hfill patch).symm, rfl, ?_, ?_, ?_, hframe.children, ?_⟩
  · rw [Tree.ids, Tree.ids, ← hfill, Place.ids_fill, Place.ids_fill, hframe.ids_eq]
  · rw [← hfill]
    exact place.nesting_fill_eq hframe.nesting_eq none
  · have hfound := hedited.find?_eq rfl
    rwa [hframe.id] at hfound
  · intro hlogic
    obtain ⟨front, back, htext⟩ := place.exists_text_around node.logic true
    refine ⟨String.ofList front, String.ofList back, ?_, ?_⟩
    · rw [← hfill, Forest.text, htext node rfl, String.ofList_append, String.ofList_append, Node.text]
    · have hkept := Node.logic_patched node hlogic
      rw [Forest.text, htext _ hkept, String.ofList_append, String.ofList_append, Node.text]

end Tree

/-- An update patches the node of its number and leaves all others as they are. It does nothing when the
number does not occur, whatever the patch is, and fails by one of its entries when the node does not take
all of them. -/
theorem update_eq_mapAll {tree : Tree} (hvalid : tree.Valid) (id : Int) (patch : Patch) :
    (id ∉ tree.ids → (Edit.update (.int id) patch).run tree = .ok tree) ∧
      ∀ node, tree.find? id = some node →
        ((∀ entry ∈ patch, node.kind.Accepts entry) → ∃ next,
          (Edit.update (.int id) patch).run tree = .ok next ∧ tree.UpdatesTo node patch next) ∧
        ((∃ entry ∈ patch, ¬ node.kind.Accepts entry) → ∃ fault,
          (Edit.update (.int id) patch).run tree = .error fault ∧
            ∃ entry ∈ patch, Refused node.kind entry fault) := by
  have hrun : (Edit.update (.int id) patch).run tree =
      (tree.update? id patch).map (·.getD tree) := rfl
  rw [hrun]
  refine ⟨fun hid => ?_, fun node hfind => ⟨fun haccepts => ?_, fun ⟨entry, hentry, hnot⟩ => ?_⟩⟩
  · have hfind : tree.find? id = none := Forest.find?_eq_none_iff.2 hid
    rw [Tree.update?, hfind]
    rfl
  · obtain ⟨place, hfill, _⟩ := Forest.exists_place_of_find? hfind
    obtain rfl := Forest.id_of_find? hfind
    obtain ⟨hupdate, hnext⟩ := hvalid.updatesTo hfill haccepts
    exact ⟨_, by rw [hupdate]; rfl, hnext⟩
  · cases hpatch : node.applyPatch patch with
    | ok changed => exact absurd ((Node.applyPatch_eq_ok_iff.1 hpatch).1 entry hentry) hnot
    | error fault =>
      have hupdate : tree.update? id patch = .error fault := by
        rw [Tree.update?, hfind]
        simp [hpatch, bind, Except.bind]
      exact ⟨fault, by rw [hupdate]; rfl, Node.exists_refused_of_applyPatch hpatch⟩

/-- An update inside a group, and one that its node does not take. -/
theorem update_eq_mapAll_nested :
    let tree : Tree := ⟨[.presence 1 "tcp", .group 3 .or true [.presence 4 "udp.port"]], 8⟩
    let patch : Patch := [("operator", .plain (.text "==")), ("value", .plain (.text "53"))]
    let faulty : Patch := [("value", .plain (.text "53")), ("negated", .plain (.text "yes"))]
    let next : Tree :=
      ⟨[.presence 1 "tcp", .group 3 .or true [.condition 4 .and "udp.port" .equals "53"]], 8⟩
    tree.Valid ∧ (∀ entry ∈ patch, NodeKind.condition.Accepts entry) ∧
      (Edit.update (.int 4) patch).run tree = .ok next ∧
      tree.UpdatesTo (.presence 4 "udp.port") patch next ∧
      ¬ NodeKind.condition.Accepts ("negated", .plain (.text "yes")) ∧
      ∃ fault, (Edit.update (.int 4) faulty).run tree = .error fault := by
  intro tree patch faulty next
  have hmake : Tree.make tree.roots 8 = .ok tree := rfl
  have hvalid : tree.Valid := Tree.valid_of_make rfl hmake
  have haccepts : ∀ entry ∈ patch, NodeKind.condition.Accepts entry := by
    intro entry hentry
    refine ⟨?_, ?_, ?_⟩ <;> revert entry <;> simp [patch, NodeKind.attributes]
  have hrefuses : ¬ NodeKind.condition.Accepts ("negated", .plain (.text "yes")) :=
    fun haccepted => by simpa [NodeKind.attributes] using haccepted.name
  obtain ⟨changed, hrun, hupdates⟩ := ((update_eq_mapAll hvalid 4 patch).2 _ rfl).1 haccepts
  have hchanged : changed = next := Except.ok.inj (hrun.symm.trans rfl)
  rw [hchanged] at hrun hupdates
  obtain ⟨fault, hfault, _⟩ :=
    ((update_eq_mapAll hvalid 4 faulty).2 _ rfl).2 ⟨_, by simp [faulty], hrefuses⟩
  exact ⟨hvalid, haccepts, hrun, hupdates, hrefuses, fault, hfault⟩

end DisplayFilter
