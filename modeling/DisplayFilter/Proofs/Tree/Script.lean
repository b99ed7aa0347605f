import DisplayFilter.Proofs.Filter.Map
import DisplayFilter.Proofs.Tree.Valid
/-!
# Building a forest by edits

Every forest of non-empty groups is built from the initial tree by additions, updates and removals. A
condition is added and then patched. A group is added with a first condition that is not wanted, patched,
filled behind that condition, and then loses it; by then it has another child, so the removal takes nothing
else along. In the end the root of the initial tree is removed the same way.

The script is followed at a slot, the top or a group at a place, whose siblings so far are left open. No
edit of it is refused (`Takes`), and the tree is valid all along.
-/

namespace DisplayFilter

/-! ### Edits that apply -/

/-- Each edit applies to the tree that the edits before it have made. -/
inductive Edit.Takes : Tree → List Edit → Tree → Prop where
  | nil (tree : Tree) : Takes tree [] tree
  | cons {tree next last : Tree} {edit : Edit} {edits : List Edit}
      (hrun : edit.run? tree = .ok (some next)) (hrest : Takes next edits last) :
      Takes tree (edit :: edits) last

theorem Edit.Takes.append {tree next last : Tree} {edits others : List Edit}
    (hedits : Takes tree edits next) (hothers : Takes next others last) :
    Takes tree (edits ++ others) last := by
  induction hedits with
  | nil => exact hothers
  | cons hrun _ ih => exact .cons hrun (ih hothers)

/-! ### The script -/

/-- All that a patch can set of a node. -/
def Node.patch : Node → Patch
  | .condition _ logic field operator value =>
    [("logic", .logic logic), ("field", .plain (.text field)), ("operator", .operator operator),
      ("value", .plain (.text value))]
  | .group _ logic negated _ => [("logic", .logic logic), ("negated", .plain (.bool negated))]

mutual

/-- How many numbers it takes to build a node. -/
def Node.room : Node → Int
  | .condition .. => 1
  | .group _ _ _ children => 2 + Forest.room children

/-- How many numbers it takes to build siblings. -/
def Forest.room : List Node → Int
  | [] => 0
  | node :: rest => node.room + Forest.room rest

end

mutual

/-- The edits that put a node behind the children of a parent, with numbers from `id` on. -/
def Node.script (parent : Value) (id : Int) : Node → List Edit
  | .condition _ logic field operator value =>
    [.add parent (.text NodeKind.condition.name),
      .update (.int id) (Node.condition id logic field operator value).patch]
  | .group _ logic negated children =>
    [.add parent (.text NodeKind.group.name),
      .update (.int id) (Node.group id logic negated children).patch] ++
      Forest.script (.int id) (id + 2) children ++ [.remove (.int (id + 1))]

/-- The edits that put siblings behind the children of a parent, with numbers from `id` on. -/
def Forest.script (parent : Value) (id : Int) : List Node → List Edit
  | [] => []
  | node :: rest => node.script parent id ++ Forest.script parent (id + node.room) rest

end

mutual

/-- The node the script builds. -/
def Node.built (id : Int) : Node → Node
  | .condition _ logic field operator value => .condition id logic field operator value
  | .group _ logic negated children => .group id logic negated (Forest.built (id + 2) children)

/-- The siblings the script builds. -/
def Forest.built (id : Int) : List Node → List Node
  | [] => []
  | node :: rest => node.built id :: Forest.built (id + node.room) rest

end

namespace Forest

@[simp] theorem script_nil (parent : Value) (id : Int) : script parent id [] = [] := by
  rw [script]

theorem script_cons (parent : Value) (id : Int) (node : Node) (rest : Forest) :
    script parent id (node :: rest) = node.script parent id ++ script parent (id + node.room) rest := by
  rw [script]

@[simp] theorem built_nil (id : Int) : built id [] = [] := by
  rw [built]

theorem built_cons (id : Int) (node : Node) (rest : Forest) :
    built id (node :: rest) = node.built id :: built (id + node.room) rest := by
  rw [built]

theorem built_ne_nil (id : Int) {forest : Forest} (hne : forest ≠ []) : built id forest ≠ [] := by
  cases forest with
  | nil => exact absurd rfl hne
  | cons node rest => simp [built_cons]

/-- The script numbers nodes anew and changes nothing else about them. -/
theorem unnumbered_built (id : Int) (forest : Forest) :
    unnumbered (built id forest) = unnumbered forest := by
  unfold unnumbered
  induction forest using Forest.induction generalizing id with
  | nil => simp
  | condition _ logic field operator value rest ih => simp [built_cons, Node.built, ih]
  | group _ logic negated children rest ihChildren ihRest =>
    simp [built_cons, Node.built, ihChildren, ihRest]

theorem load_not_mem_script (text : String) (parent : Value) (id : Int) (forest : Forest) :
    .load text ∉ script parent id forest := by
  induction forest using Forest.induction generalizing parent id with
  | nil => simp
  | condition _ logic field operator value rest ih => simp [script_cons, Node.script, ih]
  | group _ logic negated children rest ihChildren ihRest =>
    simp [script_cons, Node.script, ihChildren, ihRest]

end Forest

/-! ### Slots -/

/-- Where siblings stand: at the top, or in a group at a place. -/
inductive Slot where
  | top
  | inside (place : Place) (id : Int) (logic : Logic) (negated : Bool)

namespace Slot

/-- What an addition names to put a node into the slot. -/
def parent : Slot → Value
  | top => .null
  | inside _ id _ _ => .int id

/-- The forest with these siblings in the slot. -/
def fill (siblings : Forest) : Slot → Forest
  | top => siblings
  | inside place id logic negated => place.fill [.group id logic negated siblings]

/-- The place between siblings of the slot. -/
def between (before after : Forest) : Slot → Place
  | top => .among before after
  | inside place id logic negated =>
    (Place.inside [] id logic negated (.among before after) []).within place

theorem fill_between (slot : Slot) (before after content : Forest) :
    (slot.between before after).fill content = slot.fill (before ++ content ++ after) := by
  cases slot with
  | top => rfl
  | inside place id logic negated => rw [between, Place.fill_within, fill]; rfl

/-- A node that is not alone in its slot can be taken out of it. -/
theorem fillPruned_between (slot : Slot) {before after : Forest} (hne : before ++ after ≠ []) :
    (slot.between before after).fillPruned [] = slot.fill (before ++ after) := by
  cases slot with
  | top => simp [between, Place.fillPruned, fill]
  | inside place id logic negated =>
    have hinner : (Place.inside [] id logic negated (.among before after) []).fillPruned [] =
        [.group id logic negated (before ++ after)] := by
      rw [Place.fillPruned, Place.fillPruned, List.append_nil]
      split
      · rename_i hempty
        exact absurd hempty hne
      · rfl
    rw [between, Place.fillPruned_within, hinner, place.fillPruned_of_ne_nil (by simp), fill]

theorem fill_ne_nil (slot : Slot) {siblings : Forest} (hne : siblings ≠ []) : slot.fill siblings ≠ [] := by
  cases slot with
  | top => exact hne
  | inside place => exact place.fill_ne_nil (by simp)

end Slot

/-! ### Following the script -/

namespace Edit

variable {slot : Slot} {siblings : Forest} {next : Int}

theorem run?_add (hvalid : Tree.Valid ⟨slot.fill siblings, next⟩) (kind : NodeKind) :
    (Edit.add slot.parent (.text kind.name)).run? ⟨slot.fill siblings, next⟩ =
        .ok (some ⟨slot.fill (siblings ++ [(Tree.newNode kind next).1]), (Tree.newNode kind next).2⟩) ∧
      Tree.Valid ⟨slot.fill (siblings ++ [(Tree.newNode kind next).1]), (Tree.newNode kind next).2⟩ := by
  have hkind : NodeKind.ofRecord (.text kind.name) = .ok kind := by cases kind <;> rfl
  cases slot with
  | top =>
    obtain ⟨hadd, hedited⟩ := hvalid.addRoot_eq kind
    refine ⟨?_, hedited⟩
    simp only [run?, hkind, Slot.parent, bind, Except.bind]
    rw [hadd]
    rfl
  | inside place id logic negated =>
    obtain ⟨hadd, hedited⟩ := hvalid.addChild?_at rfl kind
    refine ⟨?_, hedited⟩
    simp only [run?, hkind, Slot.parent, bind, Except.bind]
    exact hadd

theorem run?_update {node changed : Node} {patch : Patch}
    (hvalid : Tree.Valid ⟨slot.fill (siblings ++ [node]), next⟩)
    (hpatch : node.applyPatch patch = .ok changed) :
    (Edit.update (.int node.id) patch).run? ⟨slot.fill (siblings ++ [node]), next⟩ =
        .ok (some ⟨slot.fill (siblings ++ [changed]), next⟩) ∧
      Tree.Valid ⟨slot.fill (siblings ++ [changed]), next⟩ := by
  have hfill (content : Forest) :
      (slot.between siblings []).fill content = slot.fill (siblings ++ content) := by
    rw [Slot.fill_between, List.append_nil]
  have hedit := hvalid.update?_at (hfill [node]) hpatch
  rw [hfill] at hedit
  exact hedit

theorem run?_remove {node : Node} (hvalid : Tree.Valid ⟨slot.fill (node :: siblings), next⟩)
    (hne : siblings ≠ []) :
    (Edit.remove (.int node.id)).run? ⟨slot.fill (node :: siblings), next⟩ =
        .ok (some ⟨slot.fill siblings, next⟩) ∧
      Tree.Valid ⟨slot.fill siblings, next⟩ := by
  have hfill : (slot.between [] siblings).fill [node] = slot.fill (node :: siblings) :=
    slot.fill_between [] siblings [node]
  have hleft : (slot.between [] siblings).fillPruned [] = slot.fill siblings :=
    slot.fillPruned_between hne
  have hedit := hvalid.remove?_at hfill (by rw [hleft]; exact slot.fill_ne_nil hne)
  rw [hleft] at hedit
  exact hedit

/-- A new node is added and gets its attributes. -/
theorem takes_new (hvalid : Tree.Valid ⟨slot.fill siblings, next⟩) {kind : NodeKind} {patch : Patch}
    {changed : Node} (hpatch : (Tree.newNode kind next).1.applyPatch patch = .ok changed) :
    Takes ⟨slot.fill siblings, next⟩
        [.add slot.parent (.text kind.name), .update (.int next) patch]
        ⟨slot.fill (siblings ++ [changed]), (Tree.newNode kind next).2⟩ ∧
      Tree.Valid ⟨slot.fill (siblings ++ [changed]), (Tree.newNode kind next).2⟩ := by
  have hid : (Tree.newNode kind next).1.id = next := by cases kind <;> rfl
  obtain ⟨hadd, hadded⟩ := run?_add hvalid kind
  obtain ⟨hupdate, hupdated⟩ := run?_update hadded hpatch
  rw [hid] at hupdate
  exact ⟨.cons hadd (.cons hupdate (.nil _)), hupdated⟩

/-- The script puts the siblings behind those that stand in the slot. -/
theorem takes_script (forest : Forest) (hvalid : Tree.Valid ⟨slot.fill siblings, next⟩)
    (hformed : Forest.wellFormed forest = true) :
    Takes ⟨slot.fill siblings, next⟩ (Forest.script slot.parent next forest)
        ⟨slot.fill (siblings ++ Forest.built next forest), next + Forest.room forest⟩ ∧
      Tree.Valid ⟨slot.fill (siblings ++ Forest.built next forest), next + Forest.room forest⟩ := by
  induction forest using Forest.induction generalizing slot siblings next with
  | nil =>
    rw [Forest.script_nil, Forest.built_nil, Forest.room, List.append_nil, Int.add_zero]
    exact ⟨.nil _, hvalid⟩
  | condition id logic field operator value rest ih =>
    rw [Forest.wellFormed_cons, Bool.and_eq_true] at hformed
    have hpatch : (Tree.newNode .condition next).1.applyPatch
        (Node.condition next logic field operator value).patch =
          .ok (.condition next logic field operator value) := rfl
    obtain ⟨hnew, hplaced⟩ := takes_new hvalid hpatch
    have hrest := ih hplaced hformed.2
    rw [Forest.script_cons, Forest.built_cons, Forest.room, Node.room, Node.built, Node.script,
      List.append_cons siblings, ← Int.add_assoc]
    exact ⟨hnew.append hrest.1, hrest.2⟩
  | group id logic negated children rest ihChildren ihRest =>
    rw [Forest.wellFormed_cons, Bool.and_eq_true, Node.wellFormed_group] at hformed
    obtain ⟨⟨hchildren, hinner⟩, houter⟩ := hformed
    -- While its children are built the group is a slot of its own.
    let group (children : Forest) : Node := .group next logic negated children
    let inner : Slot := .inside (slot.between siblings []) next logic negated
    have hgroup (children : Forest) : inner.fill children = slot.fill (siblings ++ [group children]) := by
      rw [Slot.fill, Slot.fill_between, List.append_nil]
    have hpatch : (Tree.newNode .group next).1.applyPatch (Node.group next logic negated children).patch =
        .ok (group [.presence (next + 1) ""]) := rfl
    obtain ⟨hnew, hplaced⟩ := takes_new hvalid hpatch
    rw [← hgroup] at hnew hplaced
    obtain ⟨hfilled, hfull⟩ := ihChildren hplaced hinner
    change Tree.Valid ⟨inner.fill (.presence (next + 1) "" :: Forest.built (next + 2) children),
      next + 2 + Forest.room children⟩ at hfull
    -- The first child is not wanted, and by now it is not the only one.
    obtain ⟨hremove, hcleared⟩ := run?_remove hfull (Forest.built_ne_nil (next + 2) hchildren)
    rw [hgroup (Forest.built (next + 2) children)] at hremove hcleared
    have hrest := ihRest hcleared houter
    have hnext : next + 2 + Forest.room children + Forest.room rest =
        next + (2 + Forest.room children + Forest.room rest) := by
      omega
    rw [Forest.script_cons, Forest.built_cons, Forest.room, Node.room, Node.built, Node.script,
      List.append_cons siblings, ← hnext, ← Int.add_assoc]
    exact ⟨((hnew.append hfilled).append (.cons hremove (.nil _))).append hrest.1, hrest.2⟩

end Edit

/-- Every forest of non-empty groups is reached from the initial tree by additions, updates and removals
that all apply, up to the numbers of its nodes. -/
theorem exists_takes_forest {forest : Forest} (hne : forest ≠ [])
    (hformed : Forest.wellFormed forest = true) (field : String) :
    ∃ (edits : List Edit) (last : Tree) (number : Int → Int),
      (∀ text, Edit.load text ∉ edits) ∧ Edit.Takes (Tree.initial field) edits last ∧
        Forest.rename number last.roots = forest ∧
        ((Forest.ids forest).Nodup →
          ∀ id ∈ last.ids, ∀ other ∈ last.ids, number id = number other → id = other) := by
  have hinitial : Tree.Valid ⟨Slot.top.fill [.presence 1 field], 2⟩ := Tree.valid_initial field
  obtain ⟨hscript, hbuilt⟩ := Edit.takes_script forest hinitial hformed
  obtain ⟨hremove, hlast⟩ := Edit.run?_remove hbuilt (Forest.built_ne_nil 2 hne)
  obtain ⟨number, hnumber, hinjective⟩ :=
    Forest.exists_rename_eq hlast.nodup (Forest.unnumbered_built 2 forest)
  refine ⟨Forest.script .null 2 forest ++ [.remove (.int 1)], _, number, fun text => ?_,
    hscript.append (.cons hremove (.nil _)), hnumber, hinjective⟩
  simp [Forest.load_not_mem_script]

/-- Two groups, one inside the other and first in it, and a test of presence with a value. -/
theorem exists_takes_forest_nested :
    let forest : Forest := [.group 9 .or true
      [.group 4 .and false [.condition 7 .or "tcp" .exists "left over"], .presence 2 "udp"]]
    forest ≠ [] ∧ Forest.wellFormed forest = true ∧ (Forest.ids forest).Nodup ∧
      ∃ (edits : List Edit) (last : Tree) (number : Int → Int),
        (∀ text, Edit.load text ∉ edits) ∧ Edit.Takes (Tree.initial "http") edits last ∧
          Forest.rename number last.roots = forest ∧
          ∀ id ∈ last.ids, ∀ other ∈ last.ids, number id = number other → id = other := by
  intro forest
  have hne : forest ≠ [] := List.cons_ne_nil _ _
  have hformed : Forest.wellFormed forest = true := rfl
  have hnodup : (Forest.ids forest).Nodup := by decide
  obtain ⟨edits, last, number, hload, htakes, hrename, hinjective⟩ :=
    exists_takes_forest hne hformed "http"
  exact ⟨hne, hformed, hnodup, edits, last, number, hload, htakes, hrename, hinjective hnodup⟩

end DisplayFilter
