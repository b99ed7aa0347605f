import DisplayFilter.Proofs.Document.Table
import DisplayFilter.Proofs.Tree.Lineage
import DisplayFilter.Proofs.Tree.Prune
import DisplayFilter.Proofs.Tree.Update
/-!
# Edits in either order

Updates and removals are whole-forest functions: an update maps over the forest, a removal prunes it. As such
they commute wherever their nodes are. Two maps for different numbers commute because no node has both, a map
and a pruning because the map sets nothing that pruning looks at, and two prunings on any forest. What is left
is whether an edit applies. An update accepts the same patches before and after another edit, since a number
keeps its kind, and a removal is refused in both orders or in none as long as both together leave something.

Two updates of one node are one update, by the second patch put over the first.
-/

namespace DisplayFilter

namespace Forest

/-! ### Pruning and maps -/

/-- A group of these siblings, if there are any. -/
def groupOf (id : Int) (logic : Logic) (negated : Bool) : Forest → Forest
  | [] => []
  | child :: others => [.group id logic negated (child :: others)]

theorem prune_condition_cons (target id : Int) (logic : Logic) (field : String) (operator : Operator)
    (value : String) (rest : Forest) :
    prune target (.condition id logic field operator value :: rest) =
      (if id = target then [] else [.condition id logic field operator value]) ++ prune target rest := by
  rw [prune, Node.prune]

theorem prune_group_cons (target id : Int) (logic : Logic) (negated : Bool) (children rest : Forest) :
    prune target (.group id logic negated children :: rest) =
      (if id = target then [] else groupOf id logic negated (prune target children)) ++
        prune target rest := by
  rw [prune, Node.prune]
  split
  · rfl
  · cases prune target children <;> rfl

theorem prune_groupOf (target id : Int) (logic : Logic) (negated : Bool) (children : Forest) :
    prune target (groupOf id logic negated children) =
      if id = target then [] else groupOf id logic negated (prune target children) := by
  cases children with
  | nil => simp [groupOf, prune]
  | cons child others =>
    rw [groupOf, prune_group_cons, prune, List.append_nil]

theorem prune_unless (target : Int) (gone : Prop) [Decidable gone] (left : Forest) :
    prune target (if gone then [] else left) = if gone then [] else prune target left := by
  split
  · rw [prune]
  · rfl

/-- The order in which two numbers are pruned makes no difference. -/
theorem prune_prune_comm (first second : Int) (forest : Forest) :
    prune first (prune second forest) = prune second (prune first forest) := by
  induction forest using Forest.induction with
  | nil => simp only [prune]
  | condition id logic field operator value rest ih =>
    rw [prune_condition_cons, prune_condition_cons, prune_append, prune_append, ih, prune_unless,
      prune_unless, prune_singleton, prune_singleton, Node.prune, Node.prune]
    split_ifs <;> rfl
  | group id logic negated children rest ihChildren ihRest =>
    rw [prune_group_cons, prune_group_cons, prune_append, prune_append, ihRest, prune_unless,
      prune_unless, prune_groupOf, prune_groupOf, ihChildren]
    split_ifs <;> rfl

theorem mapAll_groupOf {change : Node → Node} {id : Int} {logic newLogic : Logic}
    {negated newNegated : Bool} (hgroup : ∀ children,
      change (.group id logic negated children) = .group id newLogic newNegated children)
    (children : Forest) :
    mapAll change (groupOf id logic negated children) =
      groupOf id newLogic newNegated (mapAll change children) := by
  cases children with
  | nil => simp [groupOf]
  | cons child others => rw [groupOf, mapAll_group_cons, hgroup, mapAll_nil, mapAll, groupOf]

/-- A map that keeps numbers, kinds and children may come before a pruning or after it. -/
theorem prune_mapAll {change : Node → Node} (hlocal : Node.IsLocal change) (target : Int)
    (forest : Forest) : prune target (mapAll change forest) = mapAll change (prune target forest) := by
  induction forest using Forest.induction with
  | nil => simp [prune]
  | condition id logic field operator value rest ih =>
    obtain ⟨_, _, _, _, hcondition⟩ := hlocal.condition id logic field operator value
    rw [mapAll_condition_cons, hcondition, prune_condition_cons, prune_condition_cons, mapAll_append, ih]
    split
    · rw [mapAll_nil]
    · rw [mapAll_condition_cons, hcondition, mapAll_nil]
  | group id logic negated children rest ihChildren ihRest =>
    obtain ⟨_, _, hgroup⟩ := hlocal.group id logic negated
    rw [mapAll_group_cons, hgroup, prune_group_cons, prune_group_cons, mapAll_append, ihChildren, ihRest]
    split
    · rw [mapAll_nil]
    · rw [mapAll_groupOf hgroup]

theorem mapAll_eq_nil_iff {change : Node → Node} {forest : Forest} :
    mapAll change forest = [] ↔ forest = [] := by
  cases forest <;> simp [mapAll]

end Forest

namespace Node

theorem isLocal_patchAt (id : Int) (patch : Patch) : IsLocal (patchAt id patch) where
  condition other logic field operator value := by
    by_cases hid : other = id
    · exact ⟨_, _, _, _, if_pos hid⟩
    · exact ⟨logic, field, operator, value, if_neg hid⟩
  group other logic negated := by
    by_cases hid : other = id
    · exact ⟨_, _, fun children => if_pos hid⟩
    · exact ⟨logic, negated, fun children => if_neg hid⟩

theorem id_patchAt (id : Int) (patch : Patch) (node : Node) : (node.patchAt id patch).id = node.id := by
  rw [patchAt]
  split
  · exact (patched_frame node patch).id
  · rfl

theorem patchAt_comp_comm {first second : Int} (hne : first ≠ second) (patch other : Patch) :
    patchAt first patch ∘ patchAt second other = patchAt second other ∘ patchAt first patch := by
  funext node
  rw [Function.comp_apply, Function.comp_apply]
  by_cases hfirst : node.id = first
  · have hsecond : node.id ≠ second := fun heq => hne (hfirst.symm.trans heq)
    have hpatched : (node.patchAt first patch).id ≠ second := by rwa [id_patchAt]
    rw [patchAt_of_ne hsecond, patchAt_of_ne hpatched]
  · have hpatched : (node.patchAt second other).id ≠ first := by rwa [id_patchAt]
    rw [patchAt_of_ne hfirst, patchAt_of_ne hpatched]

end Node

/-! ### One patch over another -/

namespace Patch

variable {patch later : Patch} {name : String} {argument : Argument}

theorem given?_append (patch later : Patch) (name : String) :
    given? (patch ++ later) name = (later.given? name).or (patch.given? name) := by
  rw [given?, List.reverse_append, List.lookup_append, given?, given?]

/-- What a table of attributes gives for an attribute is its one entry for it. -/
theorem given?_eq_lookup (hdistinct : Table.Distinct patch) (name : String) :
    patch.given? name = patch.lookup name :=
  Table.lookup_reverse hdistinct name

/-- A patch put over another gives what both of them give one after the other. -/
theorem given?_putAll (hpatch : Table.Distinct patch) (hlater : Table.Distinct later) (name : String) :
    given? (Table.putAll patch later) name = given? (patch ++ later) name := by
  rw [given?_eq_lookup (Table.distinct_putAll hpatch later), Table.lookup_putAll_of_distinct patch hlater,
    given?_append, given?_eq_lookup hpatch, given?_eq_lookup hlater]

end Patch

namespace Node

theorem patched_congr {patch other : Patch} (hsame : ∀ name, patch.given? name = other.given? name)
    (node : Node) : node.patched patch = node.patched other := by
  cases node <;> simp only [patched, Patch.setting, hsame]

theorem patched_append (node : Node) {patch later : Patch}
    (haccepts : ∀ entry ∈ patch ++ later, node.kind.Accepts entry) :
    node.patched (patch ++ later) = (node.patched patch).patched later := by
  induction patch generalizing node with
  | nil => rw [List.nil_append, patched_nil]
  | cons entry patch ih =>
    rw [List.cons_append, List.forall_mem_cons] at haccepts
    obtain ⟨_, hrest⟩ := haccepts
    have hkind := (patched_frame node [entry]).kind
    rw [List.cons_append, patched_cons node entry hrest, ih _ (by rwa [hkind]),
      patched_cons node entry fun other hother => hrest other (List.mem_append_left _ hother)]

/-- A node with a patch and then another has the second put over the first. -/
theorem patched_patched (node : Node) {patch later : Patch} (hpatch : Table.Distinct patch)
    (hlater : Table.Distinct later) (haccepts : ∀ entry ∈ patch, node.kind.Accepts entry)
    (hothers : ∀ entry ∈ later, node.kind.Accepts entry) :
    (node.patched patch).patched later = node.patched (Table.putAll patch later) := by
  rw [patched_congr (Patch.given?_putAll hpatch hlater), patched_append]
  exact List.forall_mem_append.2 ⟨haccepts, hothers⟩

end Node

/-! ### Whether an edit applies -/

/-- The node of that number, if there is one, accepts every entry of the patch. -/
def Tree.Accepts (tree : Tree) (id : Int) (patch : Patch) : Prop :=
  ∀ node, tree.find? id = some node → ∀ entry ∈ patch, node.kind.Accepts entry

namespace Edit

/-- The tree after edits one after the other, up to the first that fails. -/
def runAll (edits : List Edit) (tree : Tree) : Except FilterError Tree :=
  edits.foldlM (fun tree edit => edit.run tree) tree

/-- The edits end in a fault of a tree or a patch. -/
def Raises (edits : List Edit) (tree : Tree) : Prop :=
  ∃ fault : FilterError, fault.isMembership = false ∧ runAll edits tree = .error fault

/-- Neither of the two edits fails, and they make the same tree in either order. -/
def CommuteOn (tree : Tree) (first second : Edit) : Prop :=
  ∃ last, runAll [first, second] tree = .ok last ∧ runAll [second, first] tree = .ok last

theorem runAll_singleton (edit : Edit) (tree : Tree) : runAll [edit] tree = edit.run tree := by
  change (edit.run tree).bind .ok = edit.run tree
  cases edit.run tree <;> rfl

theorem runAll_pair {first second : Edit} {tree next : Tree} (hrun : first.run tree = .ok next) :
    runAll [first, second] tree = second.run next := by
  change (first.run tree).bind (runAll [second]) = _
  rw [hrun]
  exact runAll_singleton second next

theorem run_update_int (id : Int) (patch : Patch) (tree : Tree) :
    (Edit.update (.int id) patch).run tree = (tree.update? id patch).map (·.getD tree) :=
  rfl

theorem run_remove_int (id : Int) (tree : Tree) :
    (Edit.remove (.int id)).run tree = (tree.remove? id).map (·.getD tree) :=
  rfl

variable {tree : Tree}

theorem not_raises {edits : List Edit} {last : Tree} (hrun : runAll edits tree = .ok last) :
    ¬ Raises edits tree := by
  rintro ⟨fault, _, hfault⟩
  rw [hrun] at hfault
  cases hfault

theorem attempt_eq {edit : Edit} {next : Tree} (hrun : edit.run tree = .ok next) :
    attempt tree edit = next := by
  rw [attempt, hrun]

theorem valid_of_run (hvalid : tree.Valid) {edit : Edit} {next : Tree}
    (hrun : edit.run tree = .ok next) : next.Valid := by
  rw [← attempt_eq hrun]
  exact valid_attempt hvalid edit

end Edit

namespace Tree

open Edit

variable {tree : Tree} {id : Int} {patch : Patch}

/-- An edit that adds no number leaves it to the same nodes which patches they accept. -/
theorem Accepts.of_run (haccepts : tree.Accepts id patch) (hvalid : tree.Valid) {edit : Edit}
    {next : Tree} (hrun : edit.run tree = .ok next) (hnext : next.nextId = tree.nextId) :
    next.Accepts id patch := by
  intro node hfind
  have hcontinues := continues_attempt hvalid edit
  rw [attempt_eq hrun] at hcontinues
  obtain rfl := Forest.id_of_find? hfind
  have hwalk : node ∈ Forest.walk next.roots := List.mem_of_find?_eq_some hfind
  have hmark : (node.id, node.kind) ∈ Forest.marks next.roots := List.mem_map_of_mem hwalk
  have hbelow : node.id < tree.nextId := by
    rw [← hnext]
    exact (valid_of_run hvalid hrun).below _ (List.mem_map_of_mem hwalk)
  have hold := hcontinues.marks_of_lt _ _ hmark hbelow
  cases hbefore : tree.find? node.id with
  | none => exact absurd (Forest.mem_ids_iff.2 ⟨_, hold⟩) (Forest.find?_eq_none_iff.1 hbefore)
  | some before =>
    have hid : before.id = node.id := Forest.id_of_find? hbefore
    have hsame : (node.id, before.kind) ∈ Forest.marks tree.roots := by
      rw [← hid]
      exact List.mem_map_of_mem (List.mem_of_find?_eq_some hbefore)
    rw [← Forest.kind_eq_of_mem_marks hvalid.nodup hsame hold]
    exact haccepts before hbefore

theorem mapAll_patchAt_of_find?_eq_none (hfind : tree.find? id = none) (patch : Patch) :
    Forest.mapAll (Node.patchAt id patch) tree.roots = tree.roots :=
  Forest.mapAll_eq_self_of_not_mem (fun _ => Node.patchAt_of_ne) (Forest.find?_eq_none_iff.1 hfind)

/-- An update that is accepted maps over the forest. -/
theorem Valid.run_update (hvalid : tree.Valid) (haccepts : tree.Accepts id patch) :
    (Edit.update (.int id) patch).run tree =
      .ok ⟨Forest.mapAll (Node.patchAt id patch) tree.roots, tree.nextId⟩ := by
  rw [run_update_int]
  cases hfind : tree.find? id with
  | none =>
    rw [update?, hfind, mapAll_patchAt_of_find?_eq_none hfind]
    rfl
  | some node =>
    obtain ⟨place, hfill, _⟩ := Forest.exists_place_of_find? hfind
    obtain rfl := Forest.id_of_find? hfind
    rw [(hvalid.updatesTo hfill (haccepts node hfind)).1, hvalid.mapAll_patchAt hfill]
    rfl

/-- An update that is not accepted fails. -/
theorem Valid.raises_update (hvalid : tree.Valid) (hnot : ¬ tree.Accepts id patch) :
    Raises [.update (.int id) patch] tree := by
  simp only [Accepts, not_forall] at hnot
  obtain ⟨node, hfind, entry, hentry, hrefuses⟩ := hnot
  rcases hvalid.update?_cases id patch with ⟨hnone, _⟩ | ⟨_, fault, _, hpatch, heq⟩ |
    ⟨found, _, _, hfound, hpatch, _⟩
  · rw [hfind] at hnone
    cases hnone
  · obtain ⟨_, _, hrefused⟩ := Node.exists_refused_of_applyPatch hpatch
    refine ⟨fault, by cases hrefused <;> rfl, ?_⟩
    rw [runAll_singleton, run_update_int, heq]
    rfl
  · rw [hfind] at hfound
    cases hfound
    exact absurd ((Node.applyPatch_eq_ok_iff.1 hpatch).1 entry hentry) hrefuses

/-- A removal prunes the forest, unless nothing would be left. -/
theorem Valid.run_remove (hvalid : tree.Valid) (id : Int) :
    (Edit.remove (.int id)).run tree = .ok (if Forest.prune id tree.roots = [] then tree
      else ⟨Forest.prune id tree.roots, tree.nextId⟩) := by
  have habsent : id ∉ tree.ids → Forest.prune id tree.roots = tree.roots :=
    fun hid => Forest.prune_eq_self hvalid.wellFormed hid
  rw [run_remove_int, hvalid.remove?_eq id]
  by_cases hempty : Forest.prune id tree.roots = []
  · rw [if_pos (.inr hempty), if_pos hempty]
    rfl
  · rw [if_neg hempty]
    by_cases hid : id ∈ tree.ids
    · rw [if_neg (not_or.2 ⟨not_not_intro hid, hempty⟩)]
      rfl
    · rw [if_pos (.inl hid), habsent hid]
      rfl

/-! ### Two edits -/

variable {first second : Int} {other later : Patch}

theorem Valid.commute_updates (hvalid : tree.Valid) (hne : first ≠ second)
    (hfirst : tree.Accepts first patch) (hsecond : tree.Accepts second other) :
    CommuteOn tree (.update (.int first) patch) (.update (.int second) other) := by
  have hrun := hvalid.run_update hfirst
  have hrunOther := hvalid.run_update hsecond
  refine ⟨_, (runAll_pair hrun).trans
    ((valid_of_run hvalid hrun).run_update (hsecond.of_run hvalid hrun rfl)), ?_⟩
  rw [runAll_pair hrunOther,
    (valid_of_run hvalid hrunOther).run_update (hfirst.of_run hvalid hrunOther rfl),
    Forest.mapAll_mapAll (Node.isLocal_patchAt first patch),
    Forest.mapAll_mapAll (Node.isLocal_patchAt second other), Node.patchAt_comp_comm hne]

theorem Valid.commute_update_remove (hvalid : tree.Valid) (haccepts : tree.Accepts first patch)
    (second : Int) : CommuteOn tree (.update (.int first) patch) (.remove (.int second)) := by
  have hlocal := Node.isLocal_patchAt first patch
  have hupdate := hvalid.run_update haccepts
  have hremove := hvalid.run_remove second
  have hremoved := (valid_of_run hvalid hupdate).run_remove second
  have hupdated := (valid_of_run hvalid hremove).run_update
    (haccepts.of_run hvalid hremove (by split <;> rfl))
  refine ⟨_, (runAll_pair hupdate).trans hremoved, (runAll_pair hremove).trans (hupdated.trans ?_)⟩
  simp only [Forest.prune_mapAll hlocal, Forest.mapAll_eq_nil_iff]
  split <;> rfl

theorem Valid.commute_removes (hvalid : tree.Valid)
    (hleft : Forest.prune first (Forest.prune second tree.roots) ≠ []) :
    CommuteOn tree (.remove (.int first)) (.remove (.int second)) := by
  have hpruned : Forest.prune second (Forest.prune first tree.roots) ≠ [] := by
    rwa [Forest.prune_prune_comm]
  have hstep {id next : Int} (hnext : Forest.prune next (Forest.prune id tree.roots) ≠ []) :
      runAll [.remove (.int id), .remove (.int next)] tree =
        .ok ⟨Forest.prune next (Forest.prune id tree.roots), tree.nextId⟩ := by
    have hkept : Forest.prune id tree.roots ≠ [] := fun hempty => hnext (by rw [hempty, Forest.prune])
    have hrun := hvalid.run_remove id
    rw [if_neg hkept] at hrun
    rw [runAll_pair hrun, (valid_of_run hvalid hrun).run_remove next, if_neg hnext]
  exact ⟨_, hstep hpruned, by rw [hstep hleft, Forest.prune_prune_comm]⟩

theorem Valid.find?_mapAll_patchAt (hvalid : tree.Valid) (haccepts : tree.Accepts id patch)
    (nextId : Int) :
    find? ⟨Forest.mapAll (Node.patchAt id patch) tree.roots, nextId⟩ id =
      (tree.find? id).map (Node.patched patch) := by
  cases hfind : tree.find? id with
  | none =>
    rw [mapAll_patchAt_of_find?_eq_none hfind]
    exact hfind
  | some node =>
    obtain ⟨place, hfill, _⟩ := Forest.exists_place_of_find? hfind
    obtain rfl := Forest.id_of_find? hfind
    rw [hvalid.mapAll_patchAt hfill]
    exact (hvalid.updatesTo hfill (haccepts node hfind)).2.found

/-- A second patch is accepted after the first if it is accepted over the first. -/
theorem Valid.accepts_putAll_iff (hvalid : tree.Valid) (haccepts : tree.Accepts id patch)
    (hpatch : Table.Distinct patch) (hlater : Table.Distinct later) (nextId : Int) :
    Accepts ⟨Forest.mapAll (Node.patchAt id patch) tree.roots, nextId⟩ id later ↔
      tree.Accepts id (Table.putAll patch later) := by
  rw [Accepts, hvalid.find?_mapAll_patchAt haccepts nextId, Accepts]
  cases hfind : tree.find? id with
  | none => simp
  | some node =>
    have hnode := haccepts node hfind
    simp only [Option.map_some, Option.some.injEq, forall_eq', (node.patched_frame patch).kind,
      Table.mem_putAll_iff hpatch hlater]
    exact ⟨fun hothers entry hentry => hentry.elim (hothers entry) fun hold => hnode entry hold.1,
      fun hall entry hentry => hall entry (.inl hentry)⟩

/-- Two patches of a node come to the second put over the first. -/
theorem Valid.mapAll_patchAt_putAll (hvalid : tree.Valid) (haccepts : tree.Accepts id patch)
    (hothers : tree.Accepts id later) (hpatch : Table.Distinct patch) (hlater : Table.Distinct later) :
    Forest.mapAll (Node.patchAt id later) (Forest.mapAll (Node.patchAt id patch) tree.roots) =
      Forest.mapAll (Node.patchAt id (Table.putAll patch later)) tree.roots := by
  cases hfind : tree.find? id with
  | none => simp only [mapAll_patchAt_of_find?_eq_none hfind]
  | some node =>
    obtain ⟨place, hfill, _⟩ := Forest.exists_place_of_find? hfind
    obtain rfl := Forest.id_of_find? hfind
    have hpatched := hvalid.mapAll_patchAt hfill patch
    have hagain := (valid_of_run hvalid (hvalid.run_update haccepts)).mapAll_patchAt hpatched.symm later
    rw [(node.patched_frame patch).id] at hagain
    rw [hagain, hvalid.mapAll_patchAt hfill,
      node.patched_patched hpatch hlater (haccepts node hfind) (hothers node hfind)]

theorem Valid.fuse_updates (hvalid : tree.Valid) (haccepts : tree.Accepts id patch)
    (hpatch : Table.Distinct patch) (hlater : Table.Distinct later) :
    (Raises [.update (.int id) patch, .update (.int id) later] tree ↔
      Raises [.update (.int id) (Table.putAll patch later)] tree) ∧
    (¬ Raises [.update (.int id) (Table.putAll patch later)] tree → ∃ last,
      runAll [.update (.int id) patch, .update (.int id) later] tree = .ok last ∧
        runAll [.update (.int id) (Table.putAll patch later)] tree = .ok last) := by
  have hrun := hvalid.run_update haccepts
  have hnext := valid_of_run hvalid hrun
  have hiff := hvalid.accepts_putAll_iff haccepts hpatch hlater tree.nextId
  by_cases hboth : tree.Accepts id (Table.putAll patch later)
  · have hothers : tree.Accepts id later := fun node hfind entry hentry =>
      hboth node hfind entry ((Table.mem_putAll_iff hpatch hlater).2 (.inl hentry))
    have hfused := (runAll_singleton _ tree).trans (hvalid.run_update hboth)
    have hpair := (runAll_pair hrun).trans (hnext.run_update (hiff.2 hboth))
    rw [hvalid.mapAll_patchAt_putAll haccepts hothers hpatch hlater] at hpair
    exact ⟨iff_of_false (not_raises hpair) (not_raises hfused), fun _ => ⟨_, hpair, hfused⟩⟩
  · have hfused := hvalid.raises_update hboth
    obtain ⟨fault, hkind, hfault⟩ := hnext.raises_update (mt hiff.1 hboth)
    rw [runAll_singleton] at hfault
    exact ⟨iff_of_true ⟨fault, hkind, (runAll_pair hrun).trans hfault⟩ hfused,
      fun hnot => absurd hfused hnot⟩

end Tree

/-- Two updates of different nodes commute, an update and a removal commute wherever their nodes are, and two
removals commute if both together leave something. Two updates of one node are one update by the second
patch put over the first: they fail if and only if that one does, and else make the same tree. -/
theorem edits_commute {tree : Tree} (hvalid : tree.Valid) (first second : Int) (patch other : Patch) :
    (first ≠ second → tree.Accepts first patch → tree.Accepts second other →
      Edit.CommuteOn tree (.update (.int first) patch) (.update (.int second) other)) ∧
    (tree.Accepts first patch →
      Edit.CommuteOn tree (.update (.int first) patch) (.remove (.int second))) ∧
    (Forest.prune first (Forest.prune second tree.roots) ≠ [] →
      Edit.CommuteOn tree (.remove (.int first)) (.remove (.int second))) ∧
    (Table.Distinct patch → Table.Distinct other →
      ∀ next, (Edit.update (.int first) patch).run tree = .ok next →
        (Edit.Raises [.update (.int first) patch, .update (.int first) other] tree ↔
          Edit.Raises [.update (.int first) (Table.putAll patch other)] tree) ∧
        (¬ Edit.Raises [.update (.int first) (Table.putAll patch other)] tree → ∃ last,
          Edit.runAll [.update (.int first) patch, .update (.int first) other] tree = .ok last ∧
          (Edit.update (.int first) (Table.putAll patch other)).run tree = .ok last)) := by
  refine ⟨hvalid.commute_updates, fun haccepts => hvalid.commute_update_remove haccepts second,
    hvalid.commute_removes, fun hpatch hother next hrun => ?_⟩
  have haccepts : tree.Accepts first patch := by
    by_contra hnot
    exact Edit.not_raises ((Edit.runAll_singleton _ tree).trans hrun) (hvalid.raises_update hnot)
  have hfused := hvalid.fuse_updates haccepts hpatch hother
  rwa [Edit.runAll_singleton] at hfused

/-- Edits of a group and of one of its children, and a patch for the child that the group does not take. -/
theorem edits_commute_nested :
    let tree : Tree :=
      ⟨[.group 3 .or true [.presence 1 "tcp", .presence 4 "udp"], .presence 7 "http"], 8⟩
    let patch : Patch := [("negated", .plain (.bool false))]
    let other : Patch := [("field", .plain (.text "dns")), ("operator", .operator .contains)]
    tree.Valid ∧ tree.Accepts 3 patch ∧ tree.Accepts 4 other ∧
      Forest.prune 3 (Forest.prune 4 tree.roots) ≠ [] ∧
      Edit.CommuteOn tree (.update (.int 3) patch) (.update (.int 4) other) ∧
      Edit.CommuteOn tree (.update (.int 3) patch) (.remove (.int 4)) ∧
      Edit.CommuteOn tree (.remove (.int 3)) (.remove (.int 4)) ∧
      Table.Distinct patch ∧ Table.Distinct other ∧
      Edit.Raises [.update (.int 3) patch, .update (.int 3) other] tree := by
  intro tree patch other
  have hmake : Tree.make tree.roots 8 = .ok tree := rfl
  have hvalid : tree.Valid := Tree.valid_of_make rfl hmake
  have hpatch : tree.Accepts 3 patch := by
    intro node hfind entry hentry
    cases (rfl : tree.find? 3 = some _).symm.trans hfind
    rw [List.mem_singleton.1 hentry]
    exact ⟨by simp [NodeKind.attributes, Node.kind], by simp, fun _ => ⟨false, rfl⟩⟩
  have hother : tree.Accepts 4 other := by
    intro node hfind entry hentry
    cases (rfl : tree.find? 4 = some _).symm.trans hfind
    rcases List.mem_pair.1 hentry with rfl | rfl <;>
      exact ⟨by simp [NodeKind.attributes, Node.kind], by simp, by simp⟩
  have hleft : Forest.prune 3 (Forest.prune 4 tree.roots) ≠ [] := by
    have hpruned : Forest.prune 3 (Forest.prune 4 tree.roots) = [.presence 7 "http"] := rfl
    rw [hpruned]
    exact List.cons_ne_nil _ _
  have hdistinct : Table.Distinct patch ∧ Table.Distinct other := by
    constructor <;> simp [Table.Distinct, patch, other]
  obtain ⟨hupdates, hboth, hremoves, hfuse⟩ := edits_commute hvalid 3 4 patch other
  have hraises : Edit.Raises [.update (.int 3) (Table.putAll patch other)] tree :=
    ⟨.inapplicable "field" .group, rfl, rfl⟩
  exact ⟨hvalid, hpatch, hother, hleft, hupdates (by decide) hpatch hother, hboth hpatch, hremoves hleft,
    hdistinct.1, hdistinct.2,
    (hfuse hdistinct.1 hdistinct.2 _ (hvalid.run_update hpatch)).1.2 hraises⟩

end DisplayFilter
